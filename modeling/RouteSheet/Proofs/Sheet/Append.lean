import RouteSheet.Proofs.Sheet.Complete
import RouteSheet.Proofs.Sheet.Contribution

/-!
# Sheets behind each other

Loading is compositional: a sheet behind a complete one adds its schema, replaces the
database if it names one, and adds those of its routes that are not declared yet. The
lines of its routes are those of the joined text.
-/

namespace RouteSheet

open Text

namespace Sheet

/-- What two sheets declare together, the second behind the first. -/
def followedBy (a b : Sheet) : Sheet where
  database := b.database.or a.database
  schema := a.schema ++ b.schema
  routes := a.routes ++ b.routes.filter fun route => !a.declares route.method route.path

/-- The sheet with its routes on lines further down. -/
def movedDown (n : Nat) (sheet : Sheet) : Sheet :=
  { sheet with routes := sheet.routes.map (·.movedDown n) }

/-- Behind a sheet the empty one adds nothing. -/
theorem followedBy_empty (a : Sheet) : a.followedBy .empty = a := by
  simp only [followedBy, empty, Option.none_or, List.append_nil, List.filter_nil]

/-- A sheet declares a method and a path exactly if one of its routes has them. -/
theorem declares_iff {sheet : Sheet} {method path : String} :
    sheet.declares method path = true ↔
      ∃ route ∈ sheet.routes, route.method = method ∧ route.path = path := by
  simp only [declares, List.any_eq_true, Bool.and_eq_true, beq_iff_eq]

/-- Two sheets together have the routes of either. -/
theorem declares_followedBy (a b : Sheet) (method path : String) :
    (a.followedBy b).declares method path =
      (a.declares method path || b.declares method path) := by
  rw [Bool.eq_iff_iff, Bool.or_eq_true]
  constructor
  · intro h
    obtain ⟨route, hr, he⟩ := declares_iff.mp h
    rcases List.mem_append.mp hr with hr | hr
    · exact Or.inl (declares_iff.mpr ⟨route, hr, he⟩)
    · exact Or.inr (declares_iff.mpr ⟨route, (List.mem_filter.mp hr).1, he⟩)
  · intro h
    by_cases ha : a.declares method path = true
    · obtain ⟨route, hr, he⟩ := declares_iff.mp ha
      exact declares_iff.mpr ⟨route, List.mem_append_left _ hr, he⟩
    · obtain ⟨route, hr, rfl, rfl⟩ := declares_iff.mp (h.resolve_left ha)
      have hkept : (!a.declares route.method route.path) = true := by
        rw [Bool.not_eq_true', ← Bool.not_eq_true]
        exact ha
      have hmem : route ∈ b.routes.filter fun route => !a.declares route.method route.path :=
        List.mem_filter.mpr ⟨hr, hkept⟩
      exact declares_iff.mpr ⟨route, List.mem_append_right _ hmem, rfl, rfl⟩

/-- A route that goes into the later sheet goes into both together. -/
theorem followedBy_withRoute (a b : Sheet) (route : Route) :
    a.followedBy (b.withRoute route) = (a.followedBy b).withRoute route := by
  unfold withRoute
  rw [declares_followedBy]
  cases hb : b.declares route.method route.path with
  | true => simp only [Bool.or_true, ite_true]
  | false =>
    cases ha : a.declares route.method route.path with
    | true =>
      simp only [Bool.or_false, ite_true, ite_false, Bool.false_eq_true, followedBy,
        List.filter_append, List.filter_cons, List.filter_nil, ha, Bool.not_true, List.append_nil]
    | false =>
      simp only [Bool.or_false, ite_false, Bool.false_eq_true, followedBy, List.filter_append,
        List.filter_cons, List.filter_nil, ha, Bool.not_false, ite_true, List.append_assoc]

/-- A rule that goes into the later sheet goes into both together. -/
theorem followedBy_withRule (a b : Sheet) (database statement : Option String) :
    a.followedBy (b.withRule database statement) =
      (a.followedBy b).withRule database statement := by
  simp only [followedBy, withRule, Option.or_assoc, List.append_assoc]

variable (env : Environment)

/-- An item joins the sheet that comes last. -/
theorem followedBy_withItem (a b : Sheet) (item : Item) :
    a.followedBy (b.withItem env item) = (a.followedBy b).withItem env item := by
  unfold withItem
  rw [← followedBy_withRule]
  cases item.route? with
  | none => rfl
  | some route => exact followedBy_withRoute a _ route

/-- The contributions of items do not depend on the sheet before them, save that its routes come
first. -/
theorem foldl_withItem (items : List Item) (a b : Sheet) :
    items.foldl (withItem env) (a.followedBy b) = a.followedBy (items.foldl (withItem env) b) := by
  induction items generalizing b with
  | nil => rfl
  | cons item items ih => rw [List.foldl_cons, ← followedBy_withItem, ih, List.foldl_cons]

/-- A sheet that is moved down declares what it declared. -/
theorem declares_movedDown (n : Nat) (sheet : Sheet) (method path : String) :
    (sheet.movedDown n).declares method path = sheet.declares method path := List.any_map

/-- A route may be added before a sheet is moved down or behind it. -/
theorem withRoute_movedDown (n : Nat) (sheet : Sheet) (route : Route) :
    (sheet.movedDown n).withRoute (route.movedDown n) = (sheet.withRoute route).movedDown n := by
  have hd : (sheet.movedDown n).declares (route.movedDown n).method (route.movedDown n).path =
      sheet.declares route.method route.path := declares_movedDown n sheet _ _
  rw [withRoute, withRoute, hd]
  split
  · rfl
  · simp only [movedDown, List.map_append, List.map_cons, List.map_nil]

/-- Items further down contribute routes further down, and otherwise the same. -/
theorem withItem_movedDown (n : Nat) (sheet : Sheet) (item : Item) :
    (sheet.movedDown n).withItem env (item.movedDown n) =
      (sheet.withItem env item).movedDown n := by
  have hrule : (sheet.movedDown n).withRule (item.database? env) item.statement? =
      (sheet.withRule (item.database? env) item.statement?).movedDown n := rfl
  unfold withItem
  rw [Item.database?_movedDown, Item.statement?_movedDown, Item.route?_movedDown, hrule]
  cases item.route? with
  | none => rfl
  | some route => exact withRoute_movedDown n _ route

/-- Items may be added before a sheet is moved down or behind it. -/
theorem foldl_withItem_movedDown (n : Nat) (items : List Item) (sheet : Sheet) :
    (items.map (·.movedDown n)).foldl (withItem env) (sheet.movedDown n) =
      (items.foldl (withItem env) sheet).movedDown n := by
  induction items generalizing sheet with
  | nil => rfl
  | cons item items ih =>
    rw [List.map_cons, List.foldl_cons, withItem_movedDown, ih, List.foldl_cons]

/-- A sheet behind a complete one declares what it declares by itself, on lines further down. -/
theorem load_append {a : List Char} (ha : Item.CompleteSheet a) (b : List Char) :
    (load env (a ++ b)).built =
      (load env a).built.followedBy ((load env b).built.movedDown (lineFeeds a)) := by
  have hmoved := foldl_withItem_movedDown env (lineFeeds a) (Item.ofSheet b) .empty
  have hempty : (load env a).built.followedBy (empty.movedDown (lineFeeds a)) =
      (load env a).built := followedBy_empty _
  rw [← ofItems, ← built_load] at hmoved
  rw [built_load, Item.ofSheet_append ha, ofItems, List.foldl_append, Item.all_movedDown, ← ofItems,
    ← built_load, ← hmoved, ← foldl_withItem, hempty]
  rfl

/-- The second sheet repeats the route of the first, which ends in a comment with a brace. -/
theorem load_append_repeated :
    Item.CompleteSheet "route[path='/']\x7breturn: 1\x7d/* \x7d */\n".toList ∧
      (load [] ("route[path='/']\x7breturn: 1\x7d/* \x7d */\n".toList ++
        "@schema x; route[path='/']\x7breturn: 2\x7d".toList)).built =
      (load [] "route[path='/']\x7breturn: 1\x7d/* \x7d */\n".toList).built.followedBy
        ((load [] "@schema x; route[path='/']\x7breturn: 2\x7d".toList).built.movedDown 1) := by
  have hitems : Item.Complete
      (blankComments "route[path='/']\x7breturn: 1\x7d/* \x7d */\n".toList) :=
    .item (b := []) (s := "route[path='/']\x7breturn: 1\x7d       \n".toList)
      (by decide) (by decide) (by decide) (.blank (by decide))
  have hcode : passageAfter .code "route[path='/']\x7breturn: 1\x7d/* \x7d */\n".toList =
      .code := by decide
  have ha : Item.CompleteSheet "route[path='/']\x7breturn: 1\x7d/* \x7d */\n".toList :=
    ⟨hitems, fun _ h => Passage.noConfusion (hcode.symm.trans h)⟩
  exact ⟨ha, load_append [] ha _⟩

end Sheet

end RouteSheet
