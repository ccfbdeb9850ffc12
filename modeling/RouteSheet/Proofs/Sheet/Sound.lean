import RouteSheet.Proofs.Route.Repeated
import RouteSheet.Proofs.Sheet.Lines
import RouteSheet.Proofs.Sheet.Status
import RouteSheet.Text.Basic

/-!
# The invariant of loaded sheets

No two routes of a sheet are declared for one method and path, and they stand on lines in
order. The method of a route has no letter in lower case, a fixed status is a status code, and
the assignments stand on lines in order behind that of the route. Items are read in the order
of their lines, so each item that is added to a sheet keeps what holds of it.
-/

namespace RouteSheet

open Text

namespace Text

/-- A smaller number stands in front of numbers in order. -/
theorem pairwise_cons_cons {m n : Nat} {lines : List Nat} (hle : m ≤ n)
    (h : (n :: lines).Pairwise (· ≤ ·)) : (m :: n :: lines).Pairwise (· ≤ ·) := by
  refine List.pairwise_cons.mpr ⟨fun k hk => ?_, h⟩
  rcases List.mem_cons.mp hk with rfl | hk
  · exact hle
  · exact Nat.le_trans hle ((List.pairwise_cons.mp h).1 k hk)

/-- A smaller number takes the place of the first of numbers in order. -/
theorem pairwise_cons_of_le {m n : Nat} {lines : List Nat} (hle : m ≤ n)
    (h : (n :: lines).Pairwise (· ≤ ·)) : (m :: lines).Pairwise (· ≤ ·) :=
  (pairwise_cons_cons hle h).sublist ((List.sublist_cons_self n lines).cons_cons m)

end Text

/-- The method is in upper case, a fixed status is a status code, and lines are in order. -/
structure Route.IsSound (route : Route) : Prop where
  method : ∀ c ∈ route.method.toList, isLower c = false
  status : ∀ code, route.status = some (.code code) → 100 ≤ code ∧ code ≤ 999
  lines : (route.line :: route.assignments.map (·.line)).Pairwise (· ≤ ·)

/-- All routes are sound, no two are for one method and path, and their lines are in order. -/
structure Sheet.IsSound (sheet : Sheet) : Prop where
  routes : ∀ route ∈ sheet.routes, route.IsSound
  targets : (sheet.routes.map Route.target).Nodup
  lines : (sheet.routes.map (·.line)).Pairwise (· ≤ ·)

namespace Declaration

/-- The declarations of parts stand on lines in order, from that of the first part on. -/
theorem pairwise_line_ofParts (line : Nat) (parts : List (List Char)) :
    (line :: (ofParts line parts).map (·.line)).Pairwise (· ≤ ·) := by
  induction parts generalizing line with
  | nil => exact List.pairwise_singleton _ _
  | cons part rest ih =>
    have hrest := ih (line + lineFeeds part)
    have hlead : lineFeeds (part.takeWhile isBlank) ≤ lineFeeds part := by
      have hsplit := lineFeeds_append (part.takeWhile isBlank) (part.dropWhile isBlank)
      rw [List.takeWhile_append_dropWhile] at hsplit
      omega
    rw [ofParts]
    by_cases hblank : (trim part).isEmpty = true
    · rw [if_pos hblank]
      exact pairwise_cons_of_le (Nat.le_add_right _ _) hrest
    · rw [if_neg hblank, List.map_cons]
      have hfirst := pairwise_cons_of_le (Nat.add_le_add_left hlead line) hrest
      exact pairwise_cons_cons (Nat.le_add_right _ _) hfirst

/-- An assignment has the line of its declaration. -/
theorem line_of_assignment? {d : Declaration} {a : Assignment} (h : d.assignment? = some a) :
    a.line = d.line := by
  obtain ⟨cut, -, hname⟩ := Option.bind_eq_some_iff.mp h
  obtain ⟨name, -, rfl⟩ := Option.map_eq_some_iff.mp hname
  rfl

/-- Assignments have the lines of the declarations that make them, in order. -/
theorem sublist_line_filterMap (ds : List Declaration) :
    ((ds.filterMap assignment?).map (·.line)).Sublist (ds.map (·.line)) := by
  induction ds with
  | nil => exact List.Sublist.slnil
  | cons d ds ih =>
    cases h : d.assignment? with
    | none =>
      rw [List.filterMap_cons_none h, List.map_cons]
      exact ih.cons d.line
    | some a =>
      rw [List.filterMap_cons_some h, List.map_cons, List.map_cons, line_of_assignment? h]
      exact ih.cons_cons d.line

end Declaration

/-- The method of a selector has no letter in lower case. -/
theorem Target.isLower_of_mem_method {text : List Char} {line : Nat} {c : Char}
    (h : c ∈ (ofText text line).built.method.toList) : isLower c = false := by
  have htake : ∀ (attributes : List Attribute) (l : Loading Target),
      (∀ c ∈ l.built.method.toList, isLower c = false) →
      ∀ c ∈ (attributes.foldl (fun l a => take l line a) l).built.method.toList,
        isLower c = false := by
    intro attributes
    induction attributes with
    | nil => exact fun _ h => h
    | cons a attributes ih =>
      intro l hl
      refine ih _ ?_
      simp only [take]
      split
      · simp only [Loading.modify, String.toList_ofList]
        exact fun c hc => isLower_of_mem_upper hc
      · split
        · exact hl
        · exact hl
  have hget : "GET".toList.any isLower = false := by decide +kernel
  exact htake _ _ (fun c hc => Bool.eq_false_iff.mpr (List.any_eq_false.mp hget c hc)) c h

namespace Item

/-- The declarations of the item stand on lines in order behind that of the item. -/
def LinesInOrder (item : Item) : Prop :=
  (item.line :: item.declarations.map (·.line)).Pairwise (· ≤ ·)

variable {item : Item} {route : Route}

/-- An item that is spelled has its lines in order. -/
theorem linesInOrder_of_spelled {taken rest : List Char} (h : item.Spelled taken rest) :
    item.LinesInOrder := by
  have hblock : ∀ (selector body : List Char) (line : Nat),
      (Item.block selector body line (line + lineFeeds selector)).LinesInOrder := by
    intro selector body line
    have hbody := pairwise_cons_of_le (Nat.le_add_right line (lineFeeds selector))
      (Declaration.pairwise_line_ofParts _ (splitTop ';' body))
    simp only [LinesInOrder, declarations, Item.line]
    split
    · split
      · exact hbody
      · exact List.pairwise_singleton _ _
    · exact List.pairwise_singleton _ _
  cases h with
  | block => exact hblock ..
  | lastBlock => exact hblock ..
  | _ => exact List.pairwise_singleton _ _

/-- Items stand on lines in order, and so do the declarations in each. -/
theorem lines_all (line : Nat) (s : List Char) :
    (∀ item ∈ all line s, item.LinesInOrder) ∧
    (line :: (all line s).map Item.line).Pairwise (· ≤ ·) := by
  fun_induction all line s with
  | case1 => exact ⟨List.forall_mem_nil _, List.pairwise_singleton _ _⟩
  | case2 =>
    next line s start h startLine found taken ih =>
    obtain ⟨read, -, hspelled, hline⟩ := exists_spelled start startLine
    obtain ⟨hdeclarations, hlines⟩ := ih
    have hbehind := pairwise_cons_of_le (Nat.le_add_right startLine _) hlines
    refine ⟨List.forall_mem_cons.mpr ⟨linesInOrder_of_spelled hspelled, hdeclarations⟩, ?_⟩
    rw [List.map_cons, hline]
    exact pairwise_cons_cons (Nat.le_add_right _ _) hbehind

/-- The route of a block is sound. -/
theorem isSound_of_route? (h : item.route? = some route) (hlines : item.LinesInOrder) :
    route.IsSound where
  method c hc := by
    cases item with
    | block selector body line bodyLine =>
      simp only [route?, Option.bind_eq_bind, Option.bind_eq_some_iff, Option.some.injEq] at h
      obtain ⟨text, -, path, -, returns, -, rfl⟩ := h
      exact Target.isLower_of_mem_method hc
    | rule text line => cases h
    | stray text line => cases h
    | unopened text line => cases h
  status code hcode := isStatusCode_iff.mp (statusInRange_of_route? h _ hcode)
  lines := by
    obtain ⟨hline, hassignments⟩ := lines_of_route? h
    rw [hline, hassignments]
    exact List.Pairwise.sublist ((Declaration.sublist_line_filterMap _).cons_cons _) hlines

end Item

namespace Sheet

variable {env : Environment} {sheet : Sheet} {item : Item} {route : Route}

/-- The empty sheet is sound. -/
theorem isSound_empty : empty.IsSound := ⟨nofun, List.nodup_nil, List.Pairwise.nil⟩

/-- A sound route behind the others leaves the sheet sound. -/
theorem IsSound.withRoute (h : sheet.IsSound) (hroute : route.IsSound)
    (hlast : ∀ earlier ∈ sheet.routes, earlier.line ≤ route.line) :
    (sheet.withRoute route).IsSound := by
  unfold Sheet.withRoute
  split
  · exact h
  · next hnew =>
    refine ⟨?_, ?_, ?_⟩
    · exact List.forall_mem_append.mpr ⟨h.routes, List.forall_mem_singleton.mpr hroute⟩
    · rw [List.map_append, List.map_singleton]
      refine List.nodup_append.mpr ⟨h.targets, List.pairwise_singleton _ _, ?_⟩
      rintro target hmem other hother rfl
      obtain ⟨earlier, hearlier, htarget⟩ := List.mem_map.mp hmem
      obtain ⟨hmethod, hpath⟩ := Prod.mk.inj (htarget.trans (List.mem_singleton.mp hother))
      exact hnew (declares_iff.mpr ⟨earlier, hearlier, hmethod, hpath⟩)
    · rw [List.map_append, List.map_singleton]
      refine List.pairwise_append.mpr ⟨h.lines, List.pairwise_singleton _ _, ?_⟩
      intro line hline k hk
      obtain ⟨earlier, hearlier, rfl⟩ := List.mem_map.mp hline
      rw [List.mem_singleton.mp hk]
      exact hlast earlier hearlier

/-- An item behind the routes of a sound sheet leaves it sound. -/
theorem IsSound.withItem (h : sheet.IsSound) (hitem : item.LinesInOrder)
    (hlast : ∀ route ∈ sheet.routes, route.line ≤ item.line) :
    (sheet.withItem env item).IsSound := by
  have hrule : (sheet.withRule (item.database? env) item.statement?).IsSound :=
    ⟨h.routes, h.targets, h.lines⟩
  unfold Sheet.withItem
  cases hroute : item.route? with
  | none => exact hrule
  | some route =>
    refine hrule.withRoute (Item.isSound_of_route? hroute hitem) fun earlier hearlier => ?_
    rw [(Item.lines_of_route? hroute).1]
    exact hlast earlier hearlier

/-- Items in order behind the routes of a sound sheet leave it sound. A route that an item adds has
the line of the item. -/
theorem IsSound.foldl_withItem {items : List Item} (h : sheet.IsSound)
    (hitems : ∀ item ∈ items, item.LinesInOrder) (horder : (items.map Item.line).Pairwise (· ≤ ·))
    (hlast : ∀ route ∈ sheet.routes, ∀ item ∈ items, route.line ≤ item.line) :
    (items.foldl (Sheet.withItem env) sheet).IsSound := by
  induction items generalizing sheet with
  | nil => exact h
  | cons item items ih =>
    obtain ⟨hitem, hrest⟩ := List.forall_mem_cons.mp hitems
    obtain ⟨hfirst, horder⟩ := List.pairwise_cons.mp horder
    have hadded : (sheet.withItem env item).IsSound :=
      h.withItem hitem fun route hroute => hlast route hroute item List.mem_cons_self
    refine ih hadded hrest horder fun route hroute later hlater => ?_
    rcases mem_routes_withItem hroute with hroute | hroute
    · exact hlast route hroute later (List.mem_cons_of_mem _ hlater)
    · rw [(Item.lines_of_route? hroute).1]
      exact hfirst _ (List.mem_map_of_mem hlater)

/-- Every loaded sheet is sound. -/
theorem isSound_load (env : Environment) (text : List Char) : (load env text).built.IsSound := by
  obtain ⟨hitems, horder⟩ := Item.lines_all 1 (blankComments text)
  rw [built_load]
  exact isSound_empty.foldl_withItem hitems (List.pairwise_cons.mp horder).2 nofun

end Sheet

end RouteSheet
