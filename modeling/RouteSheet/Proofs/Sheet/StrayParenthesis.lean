import RouteSheet.Proofs.Sheet.Contribution
import RouteSheet.Proofs.Sheet.Layout
import RouteSheet.Proofs.Text.Depth

/-!
# A stray parenthesis

Neither the items of a sheet nor the declarations of a body drop a parenthesis: what
is left out between them are blanks, separators and braces. So two readings that agree
hold equally many parentheses.

The scanner of bodies forgets a parenthesis that was never opened; the scanners for
semicolons do not, and count everything behind it one parenthesis higher. So a rule or
a declaration with such a parenthesis goes on to the first semicolon that stands one
parenthesis deep, or to the end. The body of a block is still the same.
-/

namespace RouteSheet

open Text Nesting

namespace Item

/-- All that an item keeps of the text it was read from. -/
def kept : Item → List Char
  | .rule text _ | .stray text _ | .unopened text _ => text
  | .block selector body _ _ => selector ++ body

/-- What an item does not keep of its text are marks of other kinds. -/
theorem Spelled.parentheses_kept {item : Item} {s rest : List Char} (h : item.Spelled s rest) :
    parentheses item.kept = parentheses s := by
  cases h <;> simp [kept, isParenthesis]

/-- Taking an item off a text loses no parenthesis. -/
theorem parentheses_next (s : List Char) (line : Nat) :
    parentheses (next s line).1.kept + parentheses (next s line).2 = parentheses s := by
  obtain ⟨taken, hs, hspelled, -⟩ := exists_spelled s line
  rw [hspelled.parentheses_kept, ← parentheses_append, ← hs]

/-- Reading the items of a text loses no parenthesis. -/
theorem parentheses_all (line : Nat) (s : List Char) :
    parentheses ((all line s).flatMap kept) = parentheses s := by
  fun_induction all line s with
  | case1 line s start h =>
    rw [parentheses_of_blank (trimStart_eq_nil.mp h)]
    rfl
  | case2 line s start h startLine found taken ih =>
    rw [List.flatMap_cons, parentheses_append, ih, parentheses_next]
    conv => rhs; rw [← takeWhile_append_trimStart s]
    rw [parentheses_append, parentheses_of_blank (isBlankText_takeWhile s), Nat.zero_add]

/-- Only blanks hold no items. -/
theorem all_eq_nil {line : Nat} {s : List Char} : all line s = [] ↔ isBlankText s = true := by
  constructor
  · intro h
    rw [all] at h
    split at h
    · next hs => exact trimStart_eq_nil.mp hs
    · exact absurd h (List.cons_ne_nil _ _)
  · exact fun h => all_of_blank h line

end Item

namespace Declaration

/-- A character put before the first part stands in front of all parts. -/
theorem flatten_extendFirst (c : Char) (parts : List (List Char)) :
    (extendFirst c parts).flatten = c :: parts.flatten := by
  cases parts with
  | nil => rfl
  | cons part rest => rfl

/-- Cutting a text at plain separators loses no parenthesis. -/
theorem parentheses_splitFrom {sep : Char} (hsep : isPlain sep = true) (n : Nesting)
    (s : List Char) : parentheses (splitFrom sep n s).flatten = parentheses s := by
  induction s generalizing n with
  | nil => rfl
  | cons c s ih =>
    rw [splitFrom]
    split
    · next h =>
      simp only [Bool.and_eq_true, beq_iff_eq] at h
      have hc : isParenthesis c = false := by
        rw [h.2]
        simp only [isPlain, Bool.and_eq_true, bne_iff_ne, ne_eq] at hsep
        simp only [isParenthesis, Bool.or_eq_false_iff, beq_eq_false_iff_ne, ne_eq, hsep.1.2,
          hsep.2, not_false_eq_true, and_self]
      simp only [List.flatten_cons, List.nil_append, ih, parentheses_cons, hc, Bool.false_eq_true,
        ite_false, Nat.add_zero]
    · rw [flatten_extendFirst, parentheses_cons, ih, parentheses_cons]

/-- Reading the declarations of a body loses no parenthesis. -/
theorem parentheses_ofParts (line : Nat) (parts : List (List Char)) :
    parentheses ((ofParts line parts).flatMap (·.text)) = parentheses parts.flatten := by
  induction parts generalizing line with
  | nil => rfl
  | cons part rest ih =>
    simp only [ofParts]
    split
    · next h =>
      have hp := parentheses_trim part
      rw [List.isEmpty_iff.mp h] at hp
      rw [ih, List.flatten_cons, parentheses_append, ← hp, parentheses_nil, Nat.zero_add]
    · rw [List.flatMap_cons, parentheses_append, ih, List.flatten_cons, parentheses_append,
        parentheses_trim]

end Declaration

/-- The second list is the first with at most the element at a place replaced. -/
def SameBut {α : Type} (i : Nat) (l l' : List α) : Prop := ∃ e, l' = l.set i e

private theorem set_length {α : Type} (l r : List α) (e e' : α) :
    (l ++ e :: r).set l.length e' = l ++ e' :: r := by
  rw [List.set_append_right _ _ (Nat.le_refl _), Nat.sub_self, List.set_cons_zero]

private theorem sameBut_append_iff {α : Type} (l r r' : List α) (e e' : α) :
    SameBut l.length (l ++ e :: r) (l ++ e' :: r') ↔ r' = r := by
  constructor
  · rintro ⟨d, h⟩
    rw [set_length] at h
    exact (List.cons.inj (List.append_cancel_left h)).2
  · rintro rfl
    exact ⟨e', (set_length l r' e e').symm⟩

private theorem length_eq_succ_iff {α : Type} (l r : List α) (e : α) :
    (l ++ e :: r).length = l.length + 1 ↔ r = [] := by
  rw [List.length_append, List.length_cons, ← List.length_eq_zero_iff]
  omega

namespace Item

variable {a x y after : List Char}

/-- With a stray parenthesis a rule ends at the first semicolon one parenthesis deeper. -/
theorem cutTop?_stray (hq : (top.run x).quote = none) (hx : clear ';' top x = true)
    (t : List Char) : cutTop? ';' (x ++ ')' :: t) =
      (cutFrom? ';' ((top.run x).deepened (-1)) t).map fun cut => (x ++ ')' :: cut.1, cut.2) := by
  have hclear : clear ';' top (x ++ [')']) = true := by
    refine clear_append.mpr ⟨hx, clear_cons.mpr ⟨?_, rfl⟩⟩
    rintro ⟨-, h⟩
    exact absurd h (by decide)
  have hrun : top.run (x ++ [')']) = (top.run x).deepened (-1) := by
    rw [run_append]
    exact next_closing hq
  have hcut := cutFrom?_append_of_clear hclear t
  simp only [List.append_assoc, List.cons_append, List.nil_append, hrun] at hcut
  exact hcut

/-- If only blanks stand behind a rule, and no semicolon stands one parenthesis deep in the rest
of it, a stray parenthesis leaves it without an end. -/
theorem cutTop?_stray_eq_none (hq : (top.run x).quote = none)
    (hc : cutTop? ';' (x ++ (y ++ ';' :: after)) = some (x ++ y, after))
    (hafter : isBlankText after = true) (hy : clear ';' ((top.run x).deepened (-1)) y = true) :
    cutTop? ';' (x ++ ')' :: (y ++ ';' :: after)) = none := by
  obtain ⟨-, hxy, hsep⟩ := cutFrom?_eq_some.mp hc
  have hend : ((top.run x).deepened (-1)).run y = top.deepened (-1) := by
    rw [run_deepened, ← run_append, (separates_iff.mp hsep).1]
  have hnone : ';' ∉ after := fun h => absurd (isBlank_of_mem hafter h) (by decide)
  have hclear : clear ';' ((top.run x).deepened (-1)) (y ++ ';' :: after) = true := by
    refine clear_append.mpr ⟨hy, clear_cons.mpr ⟨?_, clear_of_not_mem hnone⟩⟩
    rw [hend]
    decide
  rw [cutTop?_stray hq (clear_append.mp hxy).1, cutFrom?_eq_none.mpr hclear, Option.map_none]

/-- A rule with a stray parenthesis leaves the items behind it alone only if there are none. -/
theorem rule_unchanged_iff (line : Nat) (hq : (top.run x).quote = none)
    (hc : cutTop? ';' (x ++ (y ++ ';' :: after)) = some (x ++ y, after)) :
    (all line ('@' :: (x ++ ')' :: (y ++ ';' :: after)))).tail =
        (all line ('@' :: (x ++ (y ++ ';' :: after)))).tail ↔
      (all line ('@' :: (x ++ (y ++ ';' :: after)))).tail = [] ∧
        clear ';' ((top.run x).next ')') y = true := by
  obtain ⟨-, hxy, hsep⟩ := cutFrom?_eq_some.mp hc
  obtain ⟨hx, hy⟩ := clear_append.mp hxy
  rw [run_append] at hsep
  rw [all_rule hc, List.tail_cons, next_closing hq]
  constructor
  · intro h
    have hnew := cutTop?_stray hq hx (y ++ ';' :: after)
    cases hcut : cutFrom? ';' ((top.run x).deepened (-1)) (y ++ ';' :: after) with
    | none =>
      rw [hcut, Option.map_none] at hnew
      rw [all_rule_open hnew, List.tail_cons] at h
      exact ⟨h.symm, (clear_append.mp (cutFrom?_eq_none.mp hcut)).1⟩
    | some cut =>
      obtain ⟨z, rest⟩ := cut
      rw [hcut, Option.map_some] at hnew
      rw [all_rule hnew, List.tail_cons] at h
      have hold : cutFrom? ';' (top.run x) (y ++ ';' :: after) = some (y, after) :=
        cutFrom?_eq_some.mpr ⟨rfl, hy, hsep⟩
      have hne := parentheses_ne_of_cuts (by decide) hold hcut
      have hrest := congrArg (fun items => parentheses (items.flatMap kept)) h
      have hz := congrArg parentheses (cutFrom?_eq_some.mp hcut).1
      simp only [parentheses_all] at hrest
      simp only [parentheses_append, parentheses_cons] at hz
      exact absurd (by omega) hne
  · rintro ⟨hnil, hclear⟩
    rw [hnil, all_rule_open (cutTop?_stray_eq_none hq hc (all_eq_nil.mp hnil) hclear),
      List.tail_cons]

/-- An at sign always begins a rule. -/
theorem exists_all_rule (line : Nat) (rest : List Char) :
    ∃ rule items, all line ('@' :: rest) = rule :: items := by
  cases h : cutTop? ';' rest with
  | none => exact ⟨_, _, all_rule_open h line⟩
  | some cut => exact ⟨_, _, all_rule h line⟩

end Item

namespace Declaration

/-- The declarations behind a point are the same one parenthesis higher only if there are none. -/
theorem behind_unchanged_iff {n : Nesting} {y : List Char} (hend : (n.run y).depth ≤ 0)
    (line line' : Nat) :
    ofParts line' (splitFrom ';' (n.deepened (-1)) y).tail =
        ofParts line (splitFrom ';' n y).tail ↔
      ofParts line (splitFrom ';' n y).tail = [] ∧ clear ';' (n.deepened (-1)) y = true := by
  cases hnew : cutFrom? ';' (n.deepened (-1)) y with
  | none =>
    have hclear := cutFrom?_eq_none.mp hnew
    rw [splitFrom_of_clear hclear]
    exact ⟨fun h => ⟨h.symm, hclear⟩, fun h => h.1.symm⟩
  | some cut =>
    obtain ⟨q, b⟩ := cut
    obtain ⟨hy, -, hsep⟩ := cutFrom?_eq_some.mp hnew
    have hnot : clear ';' (n.deepened (-1)) y ≠ true := by
      intro h
      rw [cutFrom?_eq_none.mpr h] at hnew
      exact absurd hnew nofun
    refine ⟨fun h => ?_, fun h => absurd h.2 hnot⟩
    exfalso
    have hsum := congrArg (fun ds => parentheses (ds.flatMap Declaration.text)) h
    have hplain : isPlain ';' = true := rfl
    simp only [parentheses_ofParts, splitFrom_of_cut hnew, List.tail_cons, splitTop,
      parentheses_splitFrom hplain] at hsum
    cases hold : cutFrom? ';' n y with
    | none =>
      rw [splitFrom_of_clear (cutFrom?_eq_none.mp hold)] at hsum
      have hdepth := congrArg Nesting.depth (separates_iff.mp hsep).1
      rw [run_deepened] at hdepth
      have hb : parentheses (';' :: b) = 0 := hsum
      rw [hy, run_append, depth_run hb] at hend
      simp only [deepened, top] at hdepth
      omega
    | some cut =>
      obtain ⟨p, a⟩ := cut
      obtain ⟨hp, -⟩ := cutFrom?_eq_some.mp hold
      rw [splitFrom_of_cut hold, List.tail_cons, splitTop, parentheses_splitFrom rfl] at hsum
      have hne := parentheses_ne_of_cuts (by decide) hold hnew
      have hpq := congrArg parentheses (hp.symm.trans hy)
      simp only [parentheses_append, parentheses_cons] at hpq
      omega

/-- The declarations of two groups of parts are those of the first and, further down, those of the
second. -/
theorem ofParts_append (line : Nat) (parts rest : List (List Char)) :
    ofParts line (parts ++ rest) =
      ofParts line parts ++ ofParts (line + lineFeeds parts.flatten) rest := by
  induction parts generalizing line with
  | nil => rfl
  | cons part parts ih =>
    simp only [List.cons_append, ofParts, ih, List.flatten_cons, lineFeeds_append, Nat.add_assoc]
    split
    · rfl
    · rfl

/-- A part that is not blank declares something. -/
theorem ofParts_cons {part : List Char} (h : isBlankText part = false) (line : Nat)
    (rest : List (List Char)) :
    ofParts line (part :: rest) =
      ⟨trim part, line + lineFeeds (part.takeWhile isBlank)⟩ ::
        ofParts (line + lineFeeds part) rest := by
  have hne := ne_nil_of_isTrimmed (isTrimmed_trim h)
  simp only [ofParts]
  rw [if_neg (fun he => hne (List.isEmpty_iff.mp he))]

variable {x y last : List Char} {init : List (List Char)}

/-- Inside a declaration, what stands behind a point belongs to it up to the next semicolon. -/
theorem ofBody_append (hx : splitTop ';' x = init ++ [last]) (hl : isBlankText last = false)
    (line : Nat) (y : List Char) : ∃ d line', ofBody line (x ++ y) =
      ofParts line init ++ d :: ofParts line' (splitFrom ';' (top.run x) y).tail := by
  obtain ⟨part, rest, hy⟩ := exists_splitFrom ';' (top.run x) y
  have hlp : isBlankText (last ++ part) = false := by
    rw [isBlankText_append, hl, Bool.false_and]
  rw [ofBody, splitTop, splitFrom_append_last hx, hy, foldr_extendFirst, ofParts_append,
    ofParts_cons hlp]
  exact ⟨_, _, rfl⟩

/-- A declaration with a stray parenthesis leaves the others of its block alone only if it is the
last one. -/
theorem declarations_unchanged_iff (hx : splitTop ';' x = init ++ [last])
    (hl : isBlankText last = false) (hq : (top.run x).quote = none)
    (hend : top.runFloored (x ++ y) = top) (line : Nat) :
    SameBut (ofParts line init).length (ofBody line (x ++ y)) (ofBody line (x ++ ')' :: y)) ↔
      (ofBody line (x ++ y)).length = (ofParts line init).length + 1 ∧
        clear ';' ((top.run x).next ')') y = true := by
  obtain ⟨d, line₁, hold⟩ := ofBody_append hx hl line y
  obtain ⟨d', line₂, hnew⟩ := ofBody_append hx hl line (')' :: y)
  have htail : (splitFrom ';' (top.run x) (')' :: y)).tail =
      (splitFrom ';' ((top.run x).deepened (-1)) y).tail := by
    obtain ⟨part, rest, hy⟩ := exists_splitFrom ';' ((top.run x).deepened (-1)) y
    have hne : ((top.run x).separates ')' && ')' == ';') = false := Bool.and_false _
    rw [splitFrom, hne, next_closing hq, hy]
    rfl
  have hdepth : ((top.run x).run y).depth ≤ 0 := by
    have hle := depth_run_le_runFloored top (Int.le_refl 0) (x ++ y)
    rw [show top.deepened 0 = top from rfl, hend, run_append] at hle
    exact hle
  rw [hold, hnew, htail, sameBut_append_iff, next_closing hq, behind_unchanged_iff hdepth,
    length_eq_succ_iff]

end Declaration

/-- A point of a sheet inside an at-rule, outside quotes and comments and below no parenthesis.
The rule is closed, and complete items stand before it: `x` and `y` are what it holds before and
behind the point. Comments are blanked out. -/
structure InRule (before behind a x y after : List Char) : Prop where
  code : passageAfter .code before = .code
  noMark : cutsNoMark .code before behind
  complete : Item.Complete a
  read : blankComments before = a ++ '@' :: x
  toCome : blankComments behind = y ++ ';' :: after
  rule : cutTop? ';' (x ++ (y ++ ';' :: after)) = some (x ++ y, after)
  depth : top.runFloored x = top

/-- A point of a sheet inside a declaration of a block, outside quotes and comments and below no
parenthesis. The block is closed, and complete items stand before it: `x` and `y` are what its body
holds before and behind the point, and the declaration begins with `last`. -/
structure InDeclaration (before behind a selector x y after : List Char)
    (init : List (List Char)) (last : List Char) : Prop where
  code : passageAfter .code before = .code
  noMark : cutsNoMark .code before behind
  complete : Item.Complete a
  read : blankComments before = a ++ (selector ++ '\x7b' :: x)
  toCome : blankComments behind = y ++ '\x7d' :: after
  selectorStart : trimStart (selector ++ ['\x7b']) = selector ++ ['\x7b']
  noRule : selector.head? ≠ some '@'
  noBrace : clear '\x7b' top selector = true
  noStray : clear ';' top selector = true
  selectorEnd : top.run selector = top
  body : blockBody top 1 (x ++ (y ++ '\x7d' :: after)) = x ++ y
  depth : top.runFloored x = top
  parts : splitTop ';' x = init ++ [last]
  begun : isBlankText last = false

/-- At such a point the sheet may be cut, and a parenthesis put in, before comments are blanked
out. -/
theorem blankComments_insert {before behind : List Char} (hcode : passageAfter .code before = .code)
    (hcut : cutsNoMark .code before behind) :
    blankComments (before ++ behind) = blankComments before ++ blankComments behind ∧
      blankComments (before ++ ')' :: behind) =
        blankComments before ++ ')' :: blankComments behind := by
  have hstray : blankCommentsFrom .code (')' :: behind) = ')' :: blankCommentsFrom .code behind :=
    blankCommentsFrom_code_cons (fun h => absurd h.1 (by decide))
  constructor
  · rw [blankComments, blankCommentsFrom_append hcut, hcode]
    rfl
  · have hcut' : cutsNoMark .code before (')' :: behind) := by
      intro _
      rw [List.head?_cons]
      decide
    rw [blankComments, blankCommentsFrom_append hcut', hcode, hstray]
    rfl

/-- A text that leads back to the top, with the depth floored, leaves no quote open. -/
theorem quote_of_depth {x : List Char} (h : top.runFloored x = top) : (top.run x).quote = none := by
  have hq := quote_runFloored top x
  rw [h, ← quote_run] at hq
  exact hq.symm

variable {before behind a selector x y after last : List Char} {init : List (List Char)}

/-- The items before the rule do not depend on the point. -/
theorem InRule.ofSheet_eq (h : InRule before behind a x y after) :
    Item.ofSheet (before ++ behind) =
        Item.all 1 a ++ Item.all (1 + lineFeeds a) ('@' :: (x ++ (y ++ ';' :: after))) ∧
      Item.ofSheet (before ++ ')' :: behind) =
        Item.all 1 a ++ Item.all (1 + lineFeeds a) ('@' :: (x ++ ')' :: (y ++ ';' :: after))) := by
  obtain ⟨hold, hnew⟩ := blankComments_insert h.code h.noMark
  constructor
  · rw [Item.ofSheet, hold, h.read, h.toCome, List.append_assoc, List.cons_append,
      Item.all_append h.complete]
  · rw [Item.ofSheet, hnew, h.read, h.toCome, List.append_assoc, List.cons_append,
      Item.all_append h.complete]

/-- A stray parenthesis within a rule changes no other item exactly if the rule is the last item and
behind the parenthesis no semicolon stands at the top. -/
theorem InRule.sameBut_iff (h : InRule before behind a x y after) :
    SameBut (Item.all 1 a).length (Item.ofSheet (before ++ behind))
        (Item.ofSheet (before ++ ')' :: behind)) ↔
      (Item.ofSheet (before ++ behind)).length = (Item.all 1 a).length + 1 ∧
        clear ';' ((top.run x).next ')') y = true := by
  obtain ⟨hsheet, hsheet'⟩ := h.ofSheet_eq
  have hiff := Item.rule_unchanged_iff (1 + lineFeeds a) (quote_of_depth h.depth) h.rule
  obtain ⟨rule, items, hitems⟩ :=
    Item.exists_all_rule (1 + lineFeeds a) (x ++ (y ++ ';' :: after))
  obtain ⟨rule', items', hitems'⟩ :=
    Item.exists_all_rule (1 + lineFeeds a) (x ++ ')' :: (y ++ ';' :: after))
  rw [hitems, hitems', List.tail_cons, List.tail_cons] at hiff
  rw [hsheet, hsheet', hitems, hitems', sameBut_append_iff, hiff, length_eq_succ_iff]

/-- The block of a point in a declaration is closed by the same brace with a stray parenthesis. -/
theorem InDeclaration.blockBody_eq
    (h : InDeclaration before behind a selector x y after init last) :
    blockBody top 1 (x ++ y ++ '\x7d' :: after) = x ++ y ∧
      blockBody top 1 (x ++ ')' :: y ++ '\x7d' :: after) = x ++ ')' :: y := by
  obtain ⟨y', hy, hbody⟩ := blockBody_insert h.depth (by rw [h.body]; exact List.prefix_append x y)
  obtain rfl : y' = y := List.append_cancel_left (hy.symm.trans h.body)
  constructor
  · rw [List.append_assoc, hy]
  · rw [List.append_assoc, List.cons_append, hbody]

/-- A body ends where parentheses that were opened in it are closed. -/
theorem InDeclaration.runFloored_body
    (h : InDeclaration before behind a selector x y after init last) :
    top.runFloored (x ++ y) = top := by
  obtain ⟨hbody, -⟩ := h.blockBody_eq
  have hlt : (blockBody top 1 (x ++ y ++ '\x7d' :: after)).length <
      (x ++ y ++ '\x7d' :: after).length := by
    rw [hbody]
    simp only [List.length_append, List.length_cons]
    omega
  obtain ⟨-, -, hrun⟩ := exists_of_blockBody_closed hlt
  rwa [hbody] at hrun

/-- The items around the block do not depend on a stray parenthesis in it. -/
theorem InDeclaration.ofSheet_eq
    (h : InDeclaration before behind a selector x y after init last) :
    ∃ line bodyLine items,
      Item.ofSheet (before ++ behind) =
        Item.all 1 a ++ .block selector (x ++ y) line bodyLine :: items ∧
      Item.ofSheet (before ++ ')' :: behind) =
        Item.all 1 a ++ .block selector (x ++ ')' :: y) line bodyLine :: items := by
  obtain ⟨hold, hnew⟩ := blankComments_insert h.code h.noMark
  obtain ⟨hbody, hbody'⟩ := h.blockBody_eq
  have hlines : lineFeeds (x ++ ')' :: y) = lineFeeds (x ++ y) := by
    rw [lineFeeds_append, lineFeeds_append]
    rfl
  have hitems := Item.all_block h.selectorStart h.noRule h.noBrace h.selectorEnd h.noStray hbody
    (1 + lineFeeds a)
  have hitems' := Item.all_block h.selectorStart h.noRule h.noBrace h.selectorEnd h.noStray hbody'
    (1 + lineFeeds a)
  rw [hlines] at hitems'
  refine ⟨1 + lineFeeds a, 1 + lineFeeds a + lineFeeds selector,
    Item.all (1 + lineFeeds a + lineFeeds selector + lineFeeds (x ++ y)) after, ?_, ?_⟩
  · rw [← hitems, ← Item.all_append h.complete, Item.ofSheet, hold, h.read, h.toCome]
    simp only [List.append_assoc, List.cons_append]
  · rw [← hitems', ← Item.all_append h.complete, Item.ofSheet, hnew, h.read, h.toCome]
    simp only [List.append_assoc, List.cons_append]

/-- An unmatched parenthesis in an at-rule leaves the other items of the sheet as they were
exactly when the rule is the last item and no semicolon stands one parenthesis deep in the rest of
it. In a declaration of a block it always leaves the other items as they were, and the other
declarations of the block exactly when the declaration is the last one and no semicolon stands one
parenthesis deep in the rest of the body. As long as the other items are as they were, so is what
they add to the loaded sheet. -/
theorem strayParenthesis_unchanged_iff (before behind : List Char) :
    (∀ a x y after, InRule before behind a x y after →
      (SameBut (Item.all 1 a).length (Item.ofSheet (before ++ behind))
          (Item.ofSheet (before ++ ')' :: behind)) ↔
        (Item.ofSheet (before ++ behind)).length = (Item.all 1 a).length + 1 ∧
          clear ';' ((top.run x).next ')') y = true)) ∧
    (∀ a selector x y after init last,
      InDeclaration before behind a selector x y after init last →
      ∃ line bodyLine,
        (Item.ofSheet (before ++ behind))[(Item.all 1 a).length]? =
          some (.block selector (x ++ y) line bodyLine) ∧
        Item.ofSheet (before ++ ')' :: behind) =
          (Item.ofSheet (before ++ behind)).set (Item.all 1 a).length
            (.block selector (x ++ ')' :: y) line bodyLine) ∧
        (SameBut (Declaration.ofParts bodyLine init).length
            (Declaration.ofBody bodyLine (x ++ y)) (Declaration.ofBody bodyLine (x ++ ')' :: y)) ↔
          (Declaration.ofBody bodyLine (x ++ y)).length =
              (Declaration.ofParts bodyLine init).length + 1 ∧
            clear ';' ((top.run x).next ')') y = true)) ∧
    ∀ i, SameBut i (Item.ofSheet (before ++ behind)) (Item.ofSheet (before ++ ')' :: behind)) →
      ∃ item, ∀ env, (Sheet.load env (before ++ ')' :: behind)).built =
        Sheet.ofItems env ((Item.ofSheet (before ++ behind)).set i item) := by
  refine ⟨fun a x y after h => h.sameBut_iff, ?_, ?_⟩
  · intro a selector x y after init last h
    obtain ⟨line, bodyLine, items, hsheet, hsheet'⟩ := h.ofSheet_eq
    refine ⟨line, bodyLine, ?_, ?_, ?_⟩
    · rw [hsheet, List.getElem?_append_right (Nat.le_refl _), Nat.sub_self, List.getElem?_cons_zero]
    · rw [hsheet, hsheet', set_length]
    · exact Declaration.declarations_unchanged_iff h.parts h.begun (quote_of_depth h.depth)
        h.runFloored_body bodyLine
  · rintro i ⟨item, h⟩
    refine ⟨item, fun env => ?_⟩
    rw [Sheet.built_load, h]

/-- In the last rule of a sheet, and in the last declaration of a block, the parenthesis does no
harm. -/
theorem strayParenthesis_last_unchanged :
    (InRule "@schema x".toList ";".toList [] "schema x".toList [] [] ∧
      SameBut 0 (Item.ofSheet ("@schema x".toList ++ ";".toList))
        (Item.ofSheet ("@schema x".toList ++ ')' :: ";".toList))) ∧
    (InDeclaration "route\x7breturn: 3".toList "\x7d @schema x;".toList [] "route".toList
        "return: 3".toList [] " @schema x;".toList [] "return: 3".toList ∧
      ∃ bodyLine, SameBut 0 (Declaration.ofBody bodyLine ("return: 3".toList ++ []))
        (Declaration.ofBody bodyLine ("return: 3".toList ++ ')' :: []))) := by
  have hrule : InRule "@schema x".toList ";".toList [] "schema x".toList [] [] :=
    { code := by decide
      noMark := fun h => absurd h (by decide)
      complete := .blank rfl
      read := by decide
      toCome := by decide
      rule := by decide
      depth := by decide }
  have hblock : InDeclaration "route\x7breturn: 3".toList "\x7d @schema x;".toList [] "route".toList
      "return: 3".toList [] " @schema x;".toList [] "return: 3".toList :=
    { code := by decide
      noMark := fun h => absurd h (by decide)
      complete := .blank rfl
      read := by decide
      toCome := by decide
      selectorStart := by decide
      noRule := by decide
      noBrace := by decide
      noStray := by decide
      selectorEnd := by decide
      body := by decide
      depth := by decide
      parts := by decide
      begun := by decide }
  refine ⟨⟨hrule, ?_⟩, hblock, ?_⟩
  · have hiff := (strayParenthesis_unchanged_iff _ _).1 _ _ _ _ hrule
    rw [Item.all_of_blank (b := []) rfl] at hiff
    exact hiff.mpr ⟨by decide +kernel, by decide⟩
  · obtain ⟨line, bodyLine, -, -, hiff⟩ :=
      (strayParenthesis_unchanged_iff _ _).2.1 _ _ _ _ _ _ _ hblock
    exact ⟨bodyLine, hiff.mpr ⟨rfl, by decide⟩⟩

/-- An unmatched parenthesis in the first declaration of a block makes the second one part of it,
and the route is lost for want of a return. -/
theorem strayParenthesis_drops_route :
    InDeclaration "route[path='/']\x7b--a: 1".toList "; return: 3\x7d".toList []
        "route[path='/']".toList "--a: 1".toList "; return: 3".toList [] [] "--a: 1".toList ∧
      (Sheet.load [] ("route[path='/']\x7b--a: 1".toList ++
        "; return: 3\x7d".toList)).built.routes.map (·.path) = ["/"] ∧
      (Sheet.load [] ("route[path='/']\x7b--a: 1".toList ++
        ')' :: "; return: 3\x7d".toList)).built.routes.map (·.path) = [] := by
  refine ⟨?_, by decide +kernel, by decide +kernel⟩
  exact {
    code := by decide
    noMark := fun h => absurd h (by decide)
    complete := .blank rfl
    read := by decide
    toCome := by decide
    selectorStart := by decide
    noRule := by decide
    noBrace := by decide
    noStray := by decide
    selectorEnd := by decide
    body := by decide
    depth := by decide
    parts := by decide
    begun := by decide }

end RouteSheet
