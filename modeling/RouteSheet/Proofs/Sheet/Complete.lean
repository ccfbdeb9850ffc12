import RouteSheet.Proofs.Text.Comment
import RouteSheet.Proofs.Text.Trim
import RouteSheet.Sheet.Item

/-!
# Complete items

An item is closed in a text when all that the scanner looks for to find its end
lies in the text. A text is complete when it is a sequence of closed items with
blanks between and behind them. The scanner then stands outside quotes at the end
of it, and reads what follows as if the text were not there.
-/

namespace RouteSheet

open Text Nesting

namespace Item

/-- The opening brace is found like a separator. -/
theorem cutOpening?_brace (s : List Char) : cutOpening? '\x7b' s = cutTop? '\x7b' s :=
  cutOpeningFrom?_of_isPlain rfl

/-- The first opening brace at the top ends a selector that is clear of it. -/
theorem cutOpening?_brace_eq_some {s selector after : List Char} :
    cutOpening? '\x7b' s = some (selector, after) ↔
      s = selector ++ '\x7b' :: after ∧ clear '\x7b' top selector = true ∧
        (top.run selector).separates '\x7b' = true := by
  rw [cutOpening?_brace]
  exact cutFrom?_eq_some

/-- All that the reading of the first item looks for is in the text: the semicolon of an
at-rule; the opening brace of anything else, and then a semicolon before the brace or the brace
that closes the block. -/
def isClosed (s : List Char) : Bool :=
  match s with
  | '@' :: rest => (cutTop? ';' rest).isSome
  | _ =>
    match cutOpening? '\x7b' s with
    | none => false
    | some (selector, after) =>
      (cutTop? ';' selector).isSome || (blockBody .top 1 after).length < after.length

/-- A text that begins with an at sign and has a semicolon at the top begins with a rule. -/
theorem next_rule {rest text after : List Char} (h : cutTop? ';' rest = some (text, after))
    (line : Nat) : next ('@' :: rest) line = (.rule text line, after) := by
  simp only [next, h]

variable {s : List Char}

/-- A text with a semicolon at the top of its first selector begins with stray text. -/
theorem next_of_stray {selector after text tail : List Char} (hs : s.head? ≠ some '@')
    (ho : cutOpening? '\x7b' s = some (selector, after))
    (hc : cutTop? ';' selector = some (text, tail)) (line : Nat) :
    next s line = (.stray text line, s.drop (text.length + 1)) := by
  unfold next
  split
  · exact absurd rfl hs
  · simp only [ho, hc]

/-- A text without a semicolon at the top of its first selector begins with a block. -/
theorem next_of_block {selector after : List Char} (hs : s.head? ≠ some '@')
    (ho : cutOpening? '\x7b' s = some (selector, after)) (hc : cutTop? ';' selector = none)
    (line : Nat) :
    next s line = (.block selector (blockBody .top 1 after) line (line + lineFeeds selector),
      after.drop ((blockBody .top 1 after).length + 1)) := by
  unfold next
  split
  · exact absurd rfl hs
  · simp only [ho, hc]

/-- The ways in which an item may be closed. -/
theorem isClosed_cases (h : isClosed s = true) :
    (∃ text after, s = '@' :: (text ++ ';' :: after) ∧
      cutTop? ';' (text ++ ';' :: after) = some (text, after)) ∨
    (∃ text tail after, s = text ++ ';' :: tail ++ '\x7b' :: after ∧ s.head? ≠ some '@' ∧
      cutOpening? '\x7b' s = some (text ++ ';' :: tail, after) ∧
      cutTop? ';' (text ++ ';' :: tail) = some (text, tail)) ∨
    (∃ selector body after, s = selector ++ '\x7b' :: (body ++ '\x7d' :: after) ∧
      s.head? ≠ some '@' ∧
      cutOpening? '\x7b' s = some (selector, body ++ '\x7d' :: after) ∧
      cutTop? ';' selector = none ∧ blockBody .top 1 (body ++ '\x7d' :: after) = body) := by
  unfold isClosed at h
  split at h
  · next rest =>
    obtain ⟨⟨text, after⟩, hc⟩ := Option.isSome_iff_exists.mp h
    obtain ⟨rfl, -⟩ := cutFrom?_eq_some.mp hc
    exact Or.inl ⟨text, after, rfl, hc⟩
  · next hs =>
    have hat : s.head? ≠ some '@' := by
      intro he
      obtain ⟨rest, rfl⟩ := List.head?_eq_some_iff.mp he
      exact hs rest rfl
    split at h
    · exact absurd h Bool.false_ne_true
    · next selector after ho =>
      obtain ⟨hsel, -⟩ := cutOpening?_brace_eq_some.mp ho
      cases hc : cutTop? ';' selector with
      | some cut =>
        obtain ⟨text, tail⟩ := cut
        obtain ⟨rfl, -⟩ := cutFrom?_eq_some.mp hc
        exact Or.inr (Or.inl ⟨text, tail, after, hsel, hat, ho, hc⟩)
      | none =>
        simp only [hc, Option.isSome_none, Bool.false_or, decide_eq_true_eq] at h
        obtain ⟨rest, hrest, -⟩ := exists_of_blockBody_closed h
        refine Or.inr (Or.inr ⟨selector, blockBody .top 1 after, rest, ?_, hat, ?_, hc, ?_⟩)
        · rw [← hrest, hsel]
        · rw [← hrest, ho]
        · rw [← hrest]

/-- A closed text is not empty. -/
theorem ne_nil_of_isClosed (h : isClosed s = true) : s ≠ [] := by
  rintro rfl
  exact absurd h (by decide)

private theorem head?_append_of_isClosed (h : isClosed s = true) (t : List Char) :
    (s ++ t).head? = s.head? := by
  cases s with
  | nil => exact absurd rfl (ne_nil_of_isClosed h)
  | cons c s => rfl

private theorem cutOpening?_append {selector after : List Char}
    (h : cutOpening? '\x7b' s = some (selector, after)) (t : List Char) :
    cutOpening? '\x7b' (s ++ t) = some (selector, after ++ t) := by
  rw [cutOpening?_brace] at h ⊢
  exact cutFrom?_append h t

/-- The reading of a closed item is not influenced by what stands behind it. -/
theorem next_append (h : isClosed s = true) (t : List Char) (line : Nat) :
    next (s ++ t) line = ((next s line).1, (next s line).2 ++ t) := by
  have hhead := head?_append_of_isClosed h t
  rcases isClosed_cases h with ⟨text, after, rfl, hc⟩ | ⟨text, tail, after, hs, hat, ho, hc⟩ |
    ⟨selector, body, after, hs, hat, ho, hc, hb⟩
  · rw [next_rule hc, List.cons_append, next_rule (cutFrom?_append hc t)]
  · have hlen : text.length + 1 ≤ s.length := by
      rw [hs, List.length_append, List.length_append, List.length_cons]
      omega
    rw [next_of_stray hat ho hc, next_of_stray (hhead ▸ hat) (cutOpening?_append ho t) hc,
      List.drop_append_of_le_length hlen]
  · have hclosed : (blockBody .top 1 (body ++ '\x7d' :: after)).length <
        (body ++ '\x7d' :: after).length := by
      rw [hb, List.length_append, List.length_cons]
      omega
    rw [next_of_block hat ho hc, next_of_block (hhead ▸ hat) (cutOpening?_append ho t) hc,
      blockBody_append hclosed, List.drop_append_of_le_length hclosed]

private theorem quote_of_cut {sep : Char} {before after : List Char}
    (h : cutTop? sep s = some (before, after)) : before.foldl quoteNext none = none := by
  obtain ⟨-, -, hsep⟩ := cutFrom?_eq_some.mp h
  have hq := quote_run .top before
  rw [(separates_iff.mp hsep).1] at hq
  exact hq.symm

/-- Behind a text and one more character stands the rest. -/
theorem drop_behind (text : List Char) (c : Char) (rest : List Char) :
    (text ++ c :: rest).drop (text.length + 1) = rest := by
  have hlen : (text ++ [c]).length = text.length + 1 := List.length_append
  rw [List.append_cons, List.drop_left' hlen]

/-- A closed item ends with a semicolon or a brace, and its quotes are closed there. -/
theorem exists_taken (h : isClosed s = true) (line : Nat) :
    ∃ taken c, s = taken ++ c :: (next s line).2 ∧ (c = ';' ∨ c = '\x7d') ∧
      taken.foldl quoteNext none = none := by
  rcases isClosed_cases h with ⟨text, after, rfl, hc⟩ | ⟨text, tail, after, hs, hat, ho, hc⟩ |
    ⟨selector, body, after, hs, hat, ho, hc, hb⟩
  · rw [next_rule hc]
    refine ⟨'@' :: text, ';', rfl, Or.inl rfl, ?_⟩
    rw [List.foldl_cons]
    exact quote_of_cut hc
  · rw [next_of_stray hat ho hc]
    refine ⟨text, ';', ?_, Or.inl rfl, quote_of_cut hc⟩
    rw [hs, List.append_assoc, List.cons_append, drop_behind]
  · have hclosed : (blockBody .top 1 (body ++ '\x7d' :: after)).length <
        (body ++ '\x7d' :: after).length := by
      rw [hb, List.length_append, List.length_cons]
      omega
    obtain ⟨rest, hrest, hrun⟩ := exists_of_blockBody_closed hclosed
    rw [next_of_block hat ho hc, hb]
    refine ⟨selector ++ '\x7b' :: body, '\x7d', ?_, Or.inr rfl, ?_⟩
    · rw [hs, drop_behind, List.append_assoc, List.cons_append]
    · have hq := quote_runFloored .top body
      rw [hb] at hrun
      rw [List.foldl_append, quote_of_cut ((cutOpening?_brace s).symm.trans ho), List.foldl_cons]
      rw [hrun] at hq
      exact hq.symm

/-- Only the lines of an item depend on the line it begins on. -/
theorem next_line (s : List Char) (line line' : Nat) : (next s line).2 = (next s line').2 := by
  unfold next
  split
  · split <;> rfl
  · split
    · rfl
    · split <;> rfl

/-- Blanks hold no items. -/
theorem all_of_blank {b : List Char} (h : isBlankText b = true) (line : Nat) : all line b = [] := by
  rw [all, trimStart_eq_nil.mpr h]
  exact dif_pos rfl

/-- The first item stands behind the blanks, and the others behind it. -/
theorem all_cons {b s taken rest : List Char} {item : Item} (line : Nat)
    (hb : isBlankText b = true) (hs : trimStart s = s) (hne : s ≠ []) (htaken : s = taken ++ rest)
    (hn : next s (line + lineFeeds b) = (item, rest)) :
    all line (b ++ s) = item :: all (line + lineFeeds b + lineFeeds taken) rest := by
  have hstart : trimStart (b ++ s) = s := by
    rw [trimStart_append_of_blank hb, hs]
  have hblank : (b ++ s).takeWhile isBlank = b := by
    have h := takeWhile_append_trimStart (b ++ s)
    rw [hstart] at h
    exact List.append_cancel_right h
  have htake : s.take (s.length - rest.length) = taken := by
    rw [htaken, List.length_append, Nat.add_sub_cancel, List.take_left]
  rw [all, hstart, dif_neg hne, hblank]
  simp only [hn, htake]

/-- A rule that is ended is read first, and then the items behind it. -/
theorem all_rule {rest text after : List Char} (h : cutTop? ';' rest = some (text, after))
    (line : Nat) :
    all line ('@' :: rest) = .rule text line :: all (line + lineFeeds text) after := by
  obtain ⟨hrest, -⟩ := cutFrom?_eq_some.mp h
  have htaken : '@' :: rest = ('@' :: text ++ [';']) ++ after := by
    rw [hrest, List.append_assoc]
    rfl
  have hlines : lineFeeds ('@' :: text ++ [';']) = lineFeeds text := by
    rw [lineFeeds_append]
    rfl
  have hall := all_cons (b := []) line rfl (trimStart_cons (by decide) rest)
    (List.cons_ne_nil _ _) htaken (next_rule h _)
  rwa [hlines] at hall

/-- A rule without a semicolon runs to the end of the sheet. -/
theorem all_rule_open {rest : List Char} (h : cutTop? ';' rest = none) (line : Nat) :
    all line ('@' :: rest) = [.rule rest line] := by
  have hn : next ('@' :: rest) line = (.rule rest line, []) := by
    simp only [next, h]
  have hall := all_cons (b := []) line rfl (trimStart_cons (by decide) rest)
    (List.cons_ne_nil _ _) (List.append_nil _).symm hn
  rwa [all_of_blank (b := []) rfl] at hall

/-- A block begins with its selector, and the items behind it are read from its last brace on. -/
theorem all_block {selector body after : List Char}
    (hs : trimStart (selector ++ ['\x7b']) = selector ++ ['\x7b'])
    (hat : selector.head? ≠ some '@') (ho : clear '\x7b' top selector = true)
    (htop : top.run selector = top) (hc : clear ';' top selector = true)
    (hb : blockBody top 1 (body ++ '\x7d' :: after) = body) (line : Nat) :
    all line (selector ++ '\x7b' :: (body ++ '\x7d' :: after)) =
      .block selector body line (line + lineFeeds selector) ::
        all (line + lineFeeds selector + lineFeeds body) after := by
  have hat' : (selector ++ '\x7b' :: (body ++ '\x7d' :: after)).head? ≠ some '@' := by
    cases selector with
    | nil =>
      rw [List.nil_append, List.head?_cons]
      decide
    | cons c selector => exact hat
  have hopen : cutOpening? '\x7b' (selector ++ '\x7b' :: (body ++ '\x7d' :: after)) =
      some (selector, body ++ '\x7d' :: after) :=
    cutOpening?_brace_eq_some.mpr ⟨rfl, ho, separates_iff.mpr ⟨htop, rfl⟩⟩
  have hstart : trimStart (selector ++ '\x7b' :: (body ++ '\x7d' :: after)) =
      selector ++ '\x7b' :: (body ++ '\x7d' :: after) := by
    rw [List.append_cons, trimStart_append (by rw [hs]; exact List.concat_ne_nil _ _), hs]
  have htaken : selector ++ '\x7b' :: (body ++ '\x7d' :: after) =
      (selector ++ '\x7b' :: body ++ ['\x7d']) ++ after := by
    simp only [List.append_assoc, List.cons_append, List.nil_append]
  have hlines : lineFeeds (selector ++ '\x7b' :: body ++ ['\x7d']) =
      lineFeeds selector + lineFeeds body := by
    rw [lineFeeds_append, lineFeeds_append]
    rfl
  have hnext := next_of_block hat' hopen (cutFrom?_eq_none.mpr hc) line
  rw [hb, drop_behind] at hnext
  have hall := all_cons (b := []) line rfl hstart
    (List.append_ne_nil_of_right_ne_nil _ (List.cons_ne_nil _ _)) htaken hnext
  rwa [hlines, ← Nat.add_assoc] at hall

/-- A sequence of closed items with nothing but blanks between and behind them. -/
inductive Complete : List Char → Prop
  | blank {b : List Char} (hb : isBlankText b = true) : Complete b
  | item {b s : List Char} (hb : isBlankText b = true) (hs : trimStart s = s)
      (closed : isClosed s = true) (rest : Complete (next s 1).2) : Complete (b ++ s)

/-- Behind a complete text the items are read as if it were not there, but on lines further
down. -/
theorem all_append {a : List Char} (ha : Complete a) (line : Nat) (t : List Char) :
    all line (a ++ t) = all line a ++ all (line + lineFeeds a) t := by
  induction ha generalizing line with
  | @blank b hb =>
    rw [all_of_blank hb, List.nil_append, all.eq_def line, all.eq_def _ t,
      trimStart_append_of_blank hb, takeWhile_isBlank_of_blank hb]
    simp only [lineFeeds, List.count_append, Nat.add_assoc]
  | @item b s hb hs closed _ ih =>
    obtain ⟨taken, c, htaken, -, -⟩ := exists_taken closed 1
    rw [List.append_cons] at htaken
    have hne := ne_nil_of_isClosed closed
    have hst : trimStart (s ++ t) = s ++ t := by
      rw [trimStart_append (by rwa [hs]), hs]
    have hnext : ∀ l, next s l = ((next s l).1, (next s 1).2) := by
      intro l
      rw [next_line s 1 l]
    have hst' : s ++ t = (taken ++ [c]) ++ ((next s 1).2 ++ t) := by
      rw [← List.append_assoc, ← htaken]
    have hlines : lineFeeds (b ++ s) =
        lineFeeds b + lineFeeds (taken ++ [c]) + lineFeeds (next s 1).2 := by
      rw [lineFeeds_append, congrArg lineFeeds htaken, lineFeeds_append, Nat.add_assoc]
    rw [List.append_assoc, all_cons line hb hst (List.append_ne_nil_of_left_ne_nil hne t) hst'
      (by rw [next_append closed, next_line s _ 1]), ih, all_cons line hb hs hne htaken (hnext _),
      List.cons_append, hlines, Nat.add_assoc, Nat.add_assoc]

/-- Blanks open no quote. -/
theorem foldl_quoteNext_of_blank {b : List Char} (h : isBlankText b = true) :
    b.foldl quoteNext none = none := by
  induction b with
  | nil => rfl
  | cons c b ih =>
    rw [isBlankText, List.all_cons, Bool.and_eq_true] at h
    rw [List.foldl_cons, quoteNext_of_isPlain (isPlain_of_isBlank h.1), ih h.2]

/-- The quotes of the text are closed, and it does not end in a slash. -/
structure EndsInCode (s : List Char) : Prop where
  quotes : s.foldl quoteNext none = none
  slash : s.getLast? ≠ some '/'

/-- Blanks end in code. -/
theorem endsInCode_of_blank {b : List Char} (hb : isBlankText b = true) : EndsInCode b where
  quotes := foldl_quoteNext_of_blank hb
  slash hl := absurd (isBlank_of_mem hb (List.mem_of_getLast? hl)) (by decide)

/-- Behind the end of a closed item the text ends as what stands there does. -/
theorem EndsInCode.behind {b taken rest : List Char} {c : Char} (hrest : EndsInCode rest)
    (hb : isBlankText b = true) (htaken : taken.foldl quoteNext none = none)
    (hc : c = ';' ∨ c = '\x7d') : EndsInCode (b ++ (taken ++ c :: rest)) where
  quotes := by
    have hplain : isPlain c = true := by
      rcases hc with rfl | rfl <;> rfl
    rw [List.foldl_append, foldl_quoteNext_of_blank hb, List.foldl_append, htaken, List.foldl_cons,
      quoteNext_of_isPlain hplain]
    exact hrest.quotes
  slash hl := by
    rw [List.append_cons, List.getLast?_append, List.getLast?_append] at hl
    cases hr : rest.getLast? with
    | none =>
      rw [hr, List.getLast?_concat, Option.none_or, Option.some_or, Option.some.injEq] at hl
      rcases hc with rfl | rfl <;> exact absurd hl (by decide)
    | some d =>
      rw [hr] at hl
      exact hrest.slash (hr.trans hl)

/-- A complete text ends in code. -/
theorem endsInCode_of_complete {a : List Char} (ha : Complete a) : EndsInCode a := by
  induction ha with
  | blank hb => exact endsInCode_of_blank hb
  | @item b s hb hs closed _ ih =>
    obtain ⟨taken, c, htaken, hc, hq⟩ := exists_taken closed 1
    rw [htaken]
    exact ih.behind hb hq hc

/-- A stylesheet is complete when its items are, and no comment is left open. -/
structure CompleteSheet (a : List Char) : Prop where
  items : Complete (blankComments a)
  comments : ∀ afterStar, passageAfter .code a ≠ .comment afterStar

/-- Comments of the text behind a complete sheet are its own. -/
theorem blankComments_append {a : List Char} (ha : CompleteSheet a) (t : List Char) :
    blankComments (a ++ t) = blankComments a ++ blankComments t := by
  obtain ⟨hq, hl⟩ := endsInCode_of_complete ha.items
  have hcode : passageAfter .code a = .code := by
    have hquote := foldl_quoteNext_blankCommentsFrom .code a
    cases hp : passageAfter .code a with
    | code => rfl
    | quoted q =>
      rw [hp] at hquote
      exact absurd (hq.symm.trans hquote) nofun
    | comment afterStar => exact absurd hp (ha.comments afterStar)
  rw [blankComments, blankCommentsFrom_append (fun h => absurd h hl), hcode]
  rfl

/-- Behind a complete sheet the items are read as if it were not there, but on lines further
down. -/
theorem ofSheet_append {a : List Char} (ha : CompleteSheet a) (t : List Char) :
    ofSheet (a ++ t) = ofSheet a ++ all (1 + lineFeeds a) (blankComments t) := by
  rw [ofSheet, blankComments_append ha, all_append ha.items, ofSheet, blankComments,
    lineFeeds_blankCommentsFrom]

end Item

end RouteSheet
