import RouteSheet.Expr.Reader
import RouteSheet.Proofs.Sheet.Accounted
import RouteSheet.Proofs.Sheet.Contribution
import RouteSheet.Proofs.Sheet.Front
import RouteSheet.Proofs.Text.Excision

/-!
# Blocks that declare no route

An item begins and ends where a character shows, so the comments of a sheet are the same without
it. The items behind it are read as before, on other lines, and those in front of it too, unless
text before a semicolon had its brace in the item: then that text takes in all that is left, as it
does where the sheet ends with it.

A selector counts as one of a route when it begins with the letters of the word, also when its own
word goes on behind them. A block with any other selector adds nothing but a warning, and the
sheet without the block declares the same on other lines. There is one exception: text before a
semicolon that finds its brace in the block alone takes in the rest of the sheet when the block is
taken out.
-/

namespace RouteSheet.Item

open Text Nesting

variable {text taken rest u : List Char} {line : Nat} {item : Item} {before after : List Item}

/-- An item that stops before the end of the text ends with a semicolon or a brace, outside
quotes. -/
theorem exists_last (hnext : next (taken ++ rest) line = (item, rest)) (hrest : rest ≠ []) :
    ∃ init c, taken = init ++ [c] ∧ isBlank c = false ∧ taken.foldl quoteNext none = none := by
  have hleft : (next (taken ++ rest) line).2 ≠ [] := by
    rwa [hnext]
  obtain ⟨init, c, hsplit, hc, hquotes⟩ := exists_taken (isClosed_of_rest hleft) line
  rw [hnext, List.append_cons] at hsplit
  have htaken := List.append_cancel_right hsplit
  refine ⟨init, c, htaken, ?_, ?_⟩
  · rcases hc with rfl | rfl <;> rfl
  · rw [htaken, List.foldl_append, hquotes]
    rcases hc with rfl | rfl <;> rfl

/-- The comments of a sheet are the same without an item. -/
theorem blankComments_without (hfront : Front (taken ++ rest) 1 u before)
    (hs : trimStart taken = taken) (hne : taken ≠ [])
    (hnext : next (taken ++ rest) line = (item, rest))
    (htext : blankComments text = u ++ (taken ++ rest)) :
    blankComments (text.take u.length) = u ∧
    blankComments (text.drop (u.length + taken.length)) = rest ∧
    blankComments (text.take u.length ++ text.drop (u.length + taken.length)) = u ++ rest := by
  have hlength : text.length = u.length + (taken.length + rest.length) := by
    rw [← length_blankCommentsFrom .code text, ← blankComments, htext, List.length_append,
      List.length_append]
  have hsplit : text = text.take u.length ++
      ((text.drop u.length).take taken.length ++ text.drop (u.length + taken.length)) := by
    rw [← List.drop_drop, List.take_append_drop, List.take_append_drop]
  obtain ⟨c, tail, rfl⟩ := List.exists_cons_of_ne_nil hne
  refine blankComments_excise ?_ ?_ (hsplit ▸ htext) ⟨c, rfl, isBlank_head_trimStart hs⟩
    hfront.endsInCode.quotes hfront.endsInCode.slash ?_
  · rw [List.length_take]
    omega
  · rw [List.length_take, List.length_drop]
    omega
  · by_cases hrest : rest = []
    · left
      rw [List.drop_eq_nil_iff, hlength, hrest, List.length_nil]
      omega
    · exact .inr (exists_last hnext hrest)

/-- An item of a sheet stands at its place. Without it the items in front of it and behind it are
read, if a brace stands behind it or the sheet in front of it ends without text that has none; and
otherwise the reading ends as it does for the sheet in front of it. -/
theorem ofSheet_without (hitems : ofSheet text = before ++ item :: after) :
    ∃ start length, (places 0 (blankComments text))[before.length]? = some (start, length) ∧
      item.StandsAt text start (((blankComments text).drop start).take length) ∧
      (opens (blankComments (text.drop (start + length))) = true ∨
        (∀ item ∈ ofSheet (text.take start), item.isUnopened = false) →
        ∃ items n, ofSheet (text.take start ++ text.drop (start + length)) = before ++ items ∧
          after = items.map (·.movedDown n)) ∧
      (opens (blankComments (text.drop (start + length))) = false →
        (∃ item ∈ ofSheet (text.take start), item.isUnopened = true) →
        ∃ init l x y, ofSheet (text.take start ++ text.drop (start + length)) =
            init ++ [.unopened x l] ∧ ofSheet (text.take start) = init ++ [.unopened y l]) := by
  obtain ⟨u, taken, rest, htext, hfront, hs, hne, hnext, hafter, hplace⟩ := exists_front 0 hitems
  obtain ⟨hleft, hright, hwithout⟩ := blankComments_without hfront hs hne hnext htext
  have hitemsFront : ofSheet (text.take u.length) = all 1 u := by
    rw [ofSheet, hleft]
  have hitemsWithout : ofSheet (text.take u.length ++ text.drop (u.length + taken.length)) =
      all 1 (u ++ rest) := by
    rw [ofSheet, hwithout]
  rw [Nat.zero_add] at hplace
  refine ⟨u.length, taken.length, hplace, ?_, ?_, ?_⟩
  · have hslice : (blankComments text).drop u.length = taken ++ rest := by
      rw [htext, List.drop_left]
    have hline : lineOf text u.length = 1 + lineFeeds u := by
      rw [lineOf, ← lineFeeds_take_blankComments, htext, List.take_left]
    obtain ⟨read, hread, hspelled, hitem⟩ := exists_spelled (taken ++ rest) (1 + lineFeeds u)
    rw [hnext] at hread hspelled hitem
    obtain rfl := List.append_cancel_right hread
    rw [hslice, List.take_left]
    exact standsAt_of_spelled hslice hspelled (hitem.trans hline.symm)
  · intro hread
    rw [hright, hitemsFront] at hread
    refine ⟨all (1 + lineFeeds u) rest, lineFeeds taken, ?_, ?_⟩
    · rw [hitemsWithout]
      exact hfront.all_eq hread
    · rw [hafter, all_movedDown]
  · intro hopens hunopened
    rw [hright] at hopens
    rw [hitemsFront] at hunopened
    rw [hitemsFront, hitemsWithout]
    exact hfront.all_eq_unopened hopens hunopened

end RouteSheet.Item

namespace RouteSheet

open Text

/-- The identifier that a selector begins with. -/
def leadingWord (selector : List Char) : List Char :=
  (trim selector).takeWhile Condition.isNameChar

/-- All characters of the word are those of an identifier. -/
theorem route_prefix_leadingWord {selector : List Char} :
    "route".toList <+: leadingWord selector ↔ "route".toList <+: trim selector := by
  constructor
  · exact fun h => h.trans (List.takeWhile_prefix _)
  · rintro ⟨rest, hrest⟩
    have hword : "route".toList.all Condition.isNameChar = true := by decide +kernel
    rw [leadingWord, ← hrest, List.takeWhile_append_of_pos (List.all_eq_true.mp hword)]
    exact List.prefix_append _ _

section Lines

/-- The assignment without its line. -/
def Assignment.withoutLine (a : Assignment) : Assignment := { a with line := 0 }

/-- The route without the lines of itself and its assignments. -/
def Route.withoutLines (route : Route) : Route :=
  { route with
    assignments := route.assignments.map (·.withoutLine)
    line := 0 }

/-- The sheet without the lines of its routes. -/
def Sheet.withoutLines (sheet : Sheet) : Sheet :=
  { sheet with routes := sheet.routes.map (·.withoutLines) }

/-- A route without its lines is the same wherever it stands. -/
theorem Route.withoutLines_movedDown (n : Nat) (route : Route) :
    (route.movedDown n).withoutLines = route.withoutLines := by
  have hassignments : (route.assignments.map (·.movedDown n)).map (·.withoutLine) =
      route.assignments.map (·.withoutLine) := by
    rw [List.map_map]
    rfl
  rw [movedDown, withoutLines, hassignments]
  rfl

/-- The lines of a sheet behind another one have no say in what both declare. -/
theorem Sheet.withoutLines_followedBy (n : Nat) (a b : Sheet) :
    (a.followedBy (b.movedDown n)).withoutLines = (a.followedBy b).withoutLines := by
  have hroutes : ((b.routes.map (·.movedDown n)).filter fun route =>
      !a.declares route.method route.path).map Route.withoutLines =
        (b.routes.filter fun route => !a.declares route.method route.path).map
          Route.withoutLines := by
    rw [List.filter_map, List.map_map]
    exact List.map_congr_left fun route _ => Route.withoutLines_movedDown n route
  simp only [followedBy, movedDown, withoutLines, List.map_append, hroutes]

end Lines

namespace Sheet

variable (env : Environment)

/-- Items behind others declare what they declare by themselves. -/
theorem ofItems_append (items more : List Item) :
    ofItems env (items ++ more) = (ofItems env items).followedBy (ofItems env more) := by
  have hmore := foldl_withItem env more (ofItems env items) .empty
  rw [followedBy_empty] at hmore
  rw [ofItems, List.foldl_append]
  exact hmore

/-- The last of several items is added to the sheet of those before it. -/
theorem ofItems_concat (items : List Item) (item : Item) :
    ofItems env (items ++ [item]) = (ofItems env items).withItem env item := by
  rw [ofItems, List.foldl_append]
  rfl

/-- The sheet of items that are moved down is moved down. -/
theorem ofItems_movedDown (n : Nat) (items : List Item) :
    ofItems env (items.map (·.movedDown n)) = (ofItems env items).movedDown n :=
  foldl_withItem_movedDown env n items .empty

/-- An item that gives neither a database nor a statement nor a route changes nothing. -/
theorem withItem_of_none {item : Item} (sheet : Sheet) (hdatabase : item.database? env = none)
    (hstatement : item.statement? = none) (hroute : item.route? = none) :
    sheet.withItem env item = sheet := by
  rw [withItem, hdatabase, hstatement, hroute]
  simp only [withRule, Option.none_or, Option.toList_none, List.append_nil]

section Unknown

variable {selector : List Char} (body : List Char) (line bodyLine : Nat)

/-- A block whose selector is none of a route declares nothing, and one thing is said of it. -/
theorem unknown_block (h : ¬"route".toList <+: trim selector) (sheet : Sheet) :
    sheet.withItem env (.block selector body line bodyLine) = sheet ∧
    sheet.refusal? (.block selector body line bodyLine) =
      some (.unknownSelector (String.ofList (trim selector))) := by
  have hstrip := stripStart?_eq_none h
  refine ⟨withItem_of_none env sheet rfl rfl ?_, ?_⟩
  · rw [Item.route?, hstrip]
    rfl
  · rw [refusal?, hstrip]

/-- Only blocks whose selector is none of a route are reported as such. -/
theorem exists_of_unknownSelector {items : List Item} {name : String} {l : Nat}
    (h : ⟨.unknownSelector name, l⟩ ∈ (loadItems env items).diagnostics) :
    ∃ selector, name = String.ofList (trim selector) ∧ ¬"route".toList <+: trim selector := by
  have hblocks : ⟨.unknownSelector name, l⟩ ∈ ofBlocks (loadItems env items).diagnostics :=
    List.mem_filter.mpr ⟨h, rfl⟩
  clear h
  induction items using List.reverseRecOn with
  | nil => cases hblocks
  | append_singleton items item ih =>
    rw [loadItems_concat, ofBlocks_addItem] at hblocks
    rcases List.mem_append.mp hblocks with hbefore | hlast
    · exact ih hbefore
    · obtain ⟨problem, hrefusal, hproblem⟩ := Option.map_eq_some_iff.mp (Option.mem_toList.mp hlast)
      obtain ⟨rfl, -⟩ := Diagnostic.mk.inj hproblem
      cases item with
      | block selector body line bodyLine =>
        refine ⟨selector, ?_⟩
        by_cases hselector : "route".toList <+: trim selector
        · rcases route?_cases hselector rfl with ⟨_, -, hcase⟩ | ⟨_, _, -, hcase⟩ | ⟨_, -, hcase⟩
          · cases (hcase _).symm.trans hrefusal
          · cases (hcase _).symm.trans hrefusal
          · rw [hcase] at hrefusal
            split at hrefusal
            · cases hrefusal
            · cases hrefusal
        · have hunknown := (unknown_block env body line bodyLine hselector
            (loadItems env items).built).2.symm.trans hrefusal
          cases hunknown
          exact ⟨rfl, hselector⟩
      | rule text line => cases hrefusal
      | stray text line => cases hrefusal
      | unopened text line => cases hrefusal

end Unknown

section Without

variable {text text' selector body : List Char} {line bodyLine : Nat}
  {before after items : List Item} {item : Item}

/-- Without an item that declares nothing, the sheet declares the same on other lines. -/
theorem withoutLines_load_without {n : Nat} (hitems : Item.ofSheet text = before ++ item :: after)
    (hnothing : ∀ sheet : Sheet, sheet.withItem env item = sheet)
    (hwithout : Item.ofSheet text' = before ++ items) (hafter : after = items.map (·.movedDown n)) :
    (load env text').built.withoutLines = (load env text).built.withoutLines := by
  have hfront : ofItems env (before ++ [item]) = ofItems env before := by
    rw [ofItems_concat, hnothing]
  rw [built_load, built_load, hitems, hwithout, hafter, List.append_cons, ofItems_append,
    ofItems_append, hfront, ofItems_movedDown, withoutLines_followedBy]

/-- Text without a brace at the end of a sheet declares nothing. -/
theorem load_of_unopened {init : List Item} {x : List Char} {l : Nat}
    (h : Item.ofSheet text = init ++ [.unopened x l]) :
    (load env text).built = ofItems env init := by
  rw [built_load, h, ofItems_concat, withItem_of_none env _ rfl rfl rfl]

/-- What the sheet without an item declares: what the sheet does if the items in front are read,
and else what that part of the sheet does. -/
theorem load_without (hitems : Item.ofSheet text = before ++ item :: after)
    (hnothing : ∀ sheet : Sheet, sheet.withItem env item = sheet) :
    ∃ start length, (Item.places 0 (blankComments text))[before.length]? = some (start, length) ∧
      item.StandsAt text start (((blankComments text).drop start).take length) ∧
      ((load env (text.take start ++ text.drop (start + length))).built.withoutLines =
          (load env text).built.withoutLines ↔
        Item.opens (blankComments (text.drop (start + length))) = true ∨
        (∀ item ∈ Item.ofSheet (text.take start), item.isUnopened = false) ∨
        (load env (text.take start)).built.withoutLines = (load env text).built.withoutLines) := by
  obtain ⟨start, length, hplace, hstands, hread, hunread⟩ := Item.ofSheet_without hitems
  refine ⟨start, length, hplace, hstands, ?_⟩
  rw [← or_assoc]
  by_cases hopens : Item.opens (blankComments (text.drop (start + length))) = true ∨
      ∀ item ∈ Item.ofSheet (text.take start), item.isUnopened = false
  · obtain ⟨items, n, hwithout, hafter⟩ := hread hopens
    exact iff_of_true (withoutLines_load_without env hitems hnothing hwithout hafter) (.inl hopens)
  · rw [or_iff_right hopens]
    simp only [not_or, Bool.not_eq_true, not_forall, Bool.not_eq_false, exists_prop] at hopens
    obtain ⟨init, l, x, y, hwithout, hfront⟩ := hunread hopens.1 hopens.2
    rw [load_of_unopened env hwithout, load_of_unopened env hfront]

/-- A block of a sheet adds no route, is reported as one of an unknown selector, and may be taken
out without changing what the sheet declares but for the lines, exactly if two things hold. Its
selector does not begin with the letters of the word `route`. And a brace stands at the top behind
the block, or the sheet in front of it does not end with text that has none, or else that part of
the sheet alone declares all that the sheet does. -/
theorem unknown_block_iff (hitems : Item.ofSheet text =
      before ++ .block selector body line bodyLine :: after) :
    ∃ start length, (Item.places 0 (blankComments text))[before.length]? = some (start, length) ∧
      (Item.block selector body line bodyLine).StandsAt text start
        (((blankComments text).drop start).take length) ∧
      ((ofItems env (before ++ [.block selector body line bodyLine])).routes =
          (ofItems env before).routes ∧
        ⟨.unknownSelector (String.ofList (trim selector)), line⟩ ∈ (load env text).diagnostics ∧
        (load env (text.take start ++ text.drop (start + length))).built.withoutLines =
          (load env text).built.withoutLines ↔
      ¬"route".toList <+: leadingWord selector ∧
        (Item.opens (blankComments (text.drop (start + length))) = true ∨
          (∀ item ∈ Item.ofSheet (text.take start), item.isUnopened = false) ∨
          (load env (text.take start)).built.withoutLines =
            (load env text).built.withoutLines)) := by
  rw [route_prefix_leadingWord]
  by_cases hselector : "route".toList <+: trim selector
  · obtain ⟨start, length, hplace, hstands, -⟩ := Item.ofSheet_without hitems
    refine ⟨start, length, hplace, hstands, iff_of_false ?_ fun h => h.1 hselector⟩
    rintro ⟨-, hreported, -⟩
    obtain ⟨other, hname, hother⟩ := exists_of_unknownSelector env hreported
    exact hother (String.ofList_injective hname ▸ hselector)
  · have hunknown := unknown_block env body line bodyLine hselector
    obtain ⟨start, length, hplace, hstands, hsame⟩ :=
      load_without env hitems fun sheet => (hunknown sheet).1
    have hroutes : (ofItems env (before ++ [.block selector body line bodyLine])).routes =
        (ofItems env before).routes := by
      rw [ofItems_concat, (hunknown _).1]
    have hreported : ⟨.unknownSelector (String.ofList (trim selector)), line⟩ ∈
        (load env text).diagnostics := by
      refine (loadItems_prefix_load env hitems).2.subset ?_
      rw [loadItems_concat]
      exact mem_diagnostics_of_refusal? env _ (hunknown _).2
    exact ⟨start, length, hplace, hstands, by rw [hsame]; simp only [hroutes, hreported, hselector,
      not_false_eq_true, true_and]⟩

end Without

/-- A sheet with a block of another kind in front of a route. -/
def cardSheet : List Char := ".card \x7b color: red; \x7d route[path='/']\x7breturn: 1\x7d".toList

/-- The block in front of the route is reported, and the sheet declares the same without it. -/
theorem unknown_block_iff_card :
    Item.ofSheet cardSheet = [] ++ .block ".card ".toList " color: red; ".toList 1 1 ::
      [.block "route[path='/']".toList "return: 1".toList 1 1] ∧
    ⟨.unknownSelector ".card", 1⟩ ∈ (load [] cardSheet).diagnostics ∧
    (Item.places 0 (blankComments cardSheet))[0]? = some (0, 21) ∧
    (load [] (cardSheet.take 0 ++ cardSheet.drop 21)).built.withoutLines =
      (load [] cardSheet).built.withoutLines := by
  have hitems : Item.ofSheet cardSheet = [] ++ .block ".card ".toList " color: red; ".toList 1 1 ::
      [.block "route[path='/']".toList "return: 1".toList 1 1] := by decide +kernel
  have hplace : (Item.places 0 (blankComments cardSheet))[0]? = some (0, 21) := by decide +kernel
  have hword : ¬"route".toList <+: leadingWord ".card ".toList := by decide +kernel
  have hopens : Item.opens (blankComments (cardSheet.drop 21)) = true := by decide +kernel
  obtain ⟨start, length, hstart, -, hiff⟩ := unknown_block_iff [] hitems
  obtain ⟨rfl, rfl⟩ := Prod.mk.inj (Option.some.inj (hplace.symm.trans hstart))
  obtain ⟨-, hreported, hsame⟩ := hiff.mpr ⟨hword, .inl hopens⟩
  exact ⟨hitems, hreported, hplace, hsame⟩

/-- The word `routes` counts as `route`: its block declares a route, and nothing is reported. And
text before a semicolon that has its brace in a block takes in a database when the block is taken
out. -/
theorem unknown_block_not_unrouted :
    leadingWord "routes[path='/']".toList = "routes".toList ∧
    Item.ofSheet "routes[path='/']\x7breturn: 1\x7d".toList =
      [] ++ .block "routes[path='/']".toList "return: 1".toList 1 1 :: [] ∧
    (load [] "routes[path='/']\x7breturn: 1\x7d".toList).diagnostics = [] ∧
    (load [] "routes[path='/']\x7breturn: 1\x7d".toList).built.routes.map Route.target =
      [("GET", "/")] ∧
    (Item.places 0 (blankComments "foo; @database 'd'; x \x7b \x7d".toList))[2]? = some (20, 5) ∧
    (load [] "foo; @database 'd'; x \x7b \x7d".toList).built.database = some "d" ∧
    (load [] ("foo; @database 'd'; x \x7b \x7d".toList.take 20 ++
      "foo; @database 'd'; x \x7b \x7d".toList.drop 25)).built.database = none := by
  refine ⟨?_, ?_, ?_, ?_, ?_, ?_, ?_⟩ <;> decide +kernel

end Sheet

end RouteSheet
