import RouteSheet.Proofs.Sheet.Layout

/-!
# Items in front of a place

Items are read with all that stands behind them in view. An at-rule and a block end where they
end, but text before a semicolon is passed over alone only if an opening brace follows
somewhere; otherwise it takes in all that is left of the sheet. So when other text is put behind
a place, the items in front of it are the same if that text has a brace to open, or if none of
them needed one from behind the place; and else the reading stops at the same item, whatever the
text is.
-/

namespace RouteSheet

open Text Nesting

namespace Item

/-- An opening brace stands at the top of the text. -/
def opens (s : List Char) : Bool := (cutOpening? '\x7b' s).isSome

/-- The item is text without an opening brace, up to the end of the sheet. -/
def isUnopened : Item → Bool
  | .unopened _ _ => true
  | _ => false

/-- The items are read off `u`, which begins on a line and has the text `t` behind it. -/
inductive Front (t : List Char) : Nat → List Char → List Item → Prop
  | blank {line : Nat} {b : List Char} (hb : isBlankText b = true) : Front t line b []
  | item {line : Nat} {b taken rest : List Char} {item : Item} {items : List Item}
      (hb : isBlankText b = true) (hs : trimStart taken = taken) (hne : taken ≠ [])
      (closed : isClosed (taken ++ rest ++ t) = true)
      (hnext : next (taken ++ rest ++ t) (line + lineFeeds b) = (item, rest ++ t))
      (hrest : Front t (line + lineFeeds b + lineFeeds taken) rest items) :
      Front t line (b ++ (taken ++ rest)) (item :: items)

variable {s t t' taken rest : List Char} {line : Nat} {item : Item} {items : List Item}

/-- A text opens no block exactly if it has no brace at the top. -/
theorem opens_eq_false : opens s = false ↔ clear '\x7b' top s = true := by
  rw [opens, cutOpening?_brace, Option.isSome_eq_false_iff, Option.isNone_iff_eq_none]
  exact cutFrom?_eq_none

/-- A text that opens a block is not empty. -/
theorem ne_nil_of_opens (h : opens s = true) : s ≠ [] := by
  rintro rfl
  cases h

/-- Behind text that is clear and ends at the top, a brace stands at the top if it does alone. -/
theorem opens_append_of_clear (h : clear '\x7b' top s = true) (htop : top.run s = top)
    (t : List Char) : opens (s ++ t) = opens t := by
  rw [opens, opens, cutOpening?_brace, cutOpening?_brace, cutTop?, cutTop?,
    cutFrom?_append_of_clear h, htop, Option.isSome_map]

/-- Blanks lead from the top to the top. -/
theorem run_of_blank {b : List Char} (hb : isBlankText b = true) : top.run b = top := by
  induction b with
  | nil => rfl
  | cons c b ih =>
    rw [isBlankText, List.all_cons, Bool.and_eq_true] at hb
    rw [run_cons, next_of_isPlain (isPlain_of_isBlank hb.1) _ rfl]
    exact ih hb.2

/-- Text without a brace behind it takes in all that is left. -/
theorem next_of_not_opens (hat : s.head? ≠ some '@') (h : opens s = false) (line : Nat) :
    next s line = (.unopened s line, []) := by
  rw [opens, Option.isSome_eq_false_iff, Option.isNone_iff_eq_none] at h
  unfold next
  split
  · exact absurd rfl hat
  · rw [h]

/-- Text with a brace is closed if a semicolon stands before the brace or its block ends. -/
theorem isClosed_of_brace {selector after : List Char} (hat : s.head? ≠ some '@')
    (hopen : cutOpening? '\x7b' s = some (selector, after))
    (h : cutTop? ';' selector = none → (blockBody .top 1 after).length < after.length) :
    isClosed s = true := by
  unfold isClosed
  split
  · exact absurd rfl hat
  · simp only [hopen]
    cases hcut : cutTop? ';' selector with
    | none => exact (Bool.false_or _).trans (decide_eq_true (h hcut))
    | some _ => rfl

/-- An item that leaves something is closed. -/
theorem isClosed_of_rest (h : (next s line).2 ≠ []) : isClosed s = true := by
  by_cases hat : s.head? = some '@'
  · obtain ⟨rest, rfl⟩ := List.head?_eq_some_iff.mp hat
    cases hcut : cutTop? ';' rest with
    | none => simp only [next, hcut, ne_eq, not_true_eq_false] at h
    | some _ => simp only [isClosed, hcut, Option.isSome_some]
  · cases hopen : cutOpening? '\x7b' s with
    | none =>
      have hnot : opens s = false :=
        Option.isSome_eq_false_iff.mpr (Option.isNone_iff_eq_none.mpr hopen)
      rw [next_of_not_opens hat hnot] at h
      exact absurd rfl h
    | some cut =>
      refine isClosed_of_brace hat hopen fun hcut => Nat.lt_of_not_le fun hle => h ?_
      rw [next_of_block hat hopen hcut]
      exact List.drop_of_length_le (Nat.le_succ_of_le hle)

/-- Text before a semicolon is passed over alone if a brace stands behind it. -/
theorem next_stray_of_opens {text : List Char} (hat : (text ++ ';' :: rest).head? ≠ some '@')
    (hclear : clear ';' top text = true) (hbrace : clear '\x7b' top text = true)
    (htop : top.run text = top) (hopens : opens rest = true) (line : Nat) :
    next (text ++ ';' :: rest) line = (.stray text line, rest) := by
  have hbehind : top.run (text ++ [';']) = top := by
    rw [run_append, htop]
    rfl
  rw [opens, cutOpening?_brace] at hopens
  obtain ⟨⟨before, after⟩, hcut⟩ := Option.isSome_iff_exists.mp hopens
  have hopen : cutOpening? '\x7b' (text ++ ';' :: rest) = some (text ++ ';' :: before, after) := by
    have hfront : clear '\x7b' top (text ++ [';']) = true := by
      rw [clear_append, htop]
      exact ⟨hbrace, rfl⟩
    rw [List.append_cons, cutOpening?_brace, cutTop?, cutFrom?_append_of_clear hfront, hbehind,
      ← cutTop?, hcut, Option.map_some, ← List.append_cons]
  have hsemicolon : cutTop? ';' (text ++ ';' :: before) = some (text, before) :=
    cutFrom?_eq_some.mpr ⟨rfl, hclear, separates_iff.mpr ⟨htop, rfl⟩⟩
  rw [next_of_stray hat hopen hsemicolon, drop_behind]

/-- A closed item takes its text up to a semicolon, or its block up to the closing brace. -/
theorem taken_cases (closed : isClosed (taken ++ rest) = true)
    (hnext : next (taken ++ rest) line = (item, rest)) :
    (∃ text, taken = '@' :: (text ++ [';']) ∧ clear ';' top text = true ∧ top.run text = top) ∨
    (∃ text, taken = text ++ [';'] ∧ item = .stray text line ∧
      (taken ++ rest).head? ≠ some '@' ∧ clear ';' top text = true ∧
      clear '\x7b' top text = true ∧ top.run text = top) ∨
    ∃ selector body, taken = selector ++ '\x7b' :: (body ++ ['\x7d']) ∧
      (taken ++ rest).head? ≠ some '@' ∧ clear '\x7b' top selector = true ∧
      top.run selector = top ∧ blockBody .top 1 (body ++ '\x7d' :: rest) = body := by
  rcases isClosed_cases closed with ⟨text, after, hst, hcut⟩ |
    ⟨text, tail, after, hst, hat, hopen, hcut⟩ |
    ⟨selector, body, after, hst, hat, hopen, hcut, hbody⟩
  · left
    rw [hst, next_rule hcut] at hnext
    obtain ⟨-, rfl⟩ := Prod.mk.inj hnext
    obtain ⟨-, hclear, hsep⟩ := cutFrom?_eq_some.mp hcut
    refine ⟨text, List.append_cancel_right (hst.trans ?_), hclear, (separates_iff.mp hsep).1⟩
    rw [List.append_cons, List.cons_append]
  · right
    left
    rw [next_of_stray hat hopen hcut, hst, List.append_assoc, List.cons_append,
      drop_behind] at hnext
    obtain ⟨rfl, rfl⟩ := Prod.mk.inj hnext
    obtain ⟨-, hclear, hsep⟩ := cutFrom?_eq_some.mp hcut
    obtain ⟨-, hbrace, -⟩ := cutOpening?_brace_eq_some.mp hopen
    refine ⟨text, List.append_cancel_right (hst.trans ?_), rfl, hat, hclear,
      (clear_append.mp hbrace).1, (separates_iff.mp hsep).1⟩
    rw [← List.append_cons, List.append_assoc, List.cons_append]
  · right
    right
    rw [next_of_block hat hopen hcut, hbody, drop_behind] at hnext
    obtain ⟨-, rfl⟩ := Prod.mk.inj hnext
    obtain ⟨-, hclear, hsep⟩ := cutOpening?_brace_eq_some.mp hopen
    refine ⟨selector, body, List.append_cancel_right (hst.trans ?_), hat, hclear,
      (separates_iff.mp hsep).1, hbody⟩
    simp only [List.append_assoc, List.cons_append, List.nil_append]

/-- A closed item is closed without what stands behind the place, unless it is text before a
semicolon whose brace stands there. -/
theorem isClosed_or_stray (hne : taken ≠ []) (closed : isClosed (taken ++ (rest ++ t)) = true)
    (hnext : next (taken ++ (rest ++ t)) line = (item, rest ++ t)) :
    isClosed (taken ++ rest) = true ∨ ∃ text, taken = text ++ [';'] ∧ item = .stray text line ∧
      (∀ t', (taken ++ t').head? ≠ some '@') ∧ clear ';' top text = true ∧
      clear '\x7b' top text = true ∧ top.run text = top ∧ opens rest = false := by
  have hhead : ∀ t', (taken ++ t').head? = taken.head? := by
    intro t'
    rw [List.head?_append, Option.or_eq_left_of_isSome (List.isSome_head?.mpr hne)]
  rcases taken_cases closed hnext with ⟨text, rfl, hclear, htop⟩ |
    ⟨text, rfl, hitem, hbegin, hclear, hbrace, htop⟩ |
    ⟨selector, body, rfl, hbegin, hclear, htop, hbody⟩
  · left
    have hcut : cutTop? ';' (text ++ ';' :: rest) = some (text, rest) :=
      cutFrom?_eq_some.mpr ⟨rfl, hclear, separates_iff.mpr ⟨htop, rfl⟩⟩
    rw [List.cons_append, ← List.append_cons, isClosed, hcut]
    rfl
  · have hat : ∀ t', (text ++ [';'] ++ t').head? ≠ some '@' := by
      intro t'
      rwa [hhead, ← hhead (rest ++ t)]
    by_cases hopens : opens rest = true
    · left
      have hat' := hat rest
      rw [← List.append_cons] at hat' ⊢
      have hleft : (next (text ++ ';' :: rest) line).2 ≠ [] := by
        rw [next_stray_of_opens hat' hclear hbrace htop hopens]
        exact ne_nil_of_opens hopens
      exact isClosed_of_rest hleft
    · right
      exact ⟨text, rfl, hitem, hat, hclear, hbrace, htop, Bool.eq_false_iff.mpr hopens⟩
  · left
    have hsplit : selector ++ '\x7b' :: (body ++ ['\x7d']) ++ rest =
        selector ++ '\x7b' :: (body ++ '\x7d' :: rest) := by
      simp only [List.append_assoc, List.cons_append, List.nil_append]
    have hopen : cutOpening? '\x7b' (selector ++ '\x7b' :: (body ++ ['\x7d']) ++ rest) =
        some (selector, body ++ '\x7d' :: rest) :=
      cutOpening?_brace_eq_some.mpr ⟨hsplit, hclear, separates_iff.mpr ⟨htop, rfl⟩⟩
    have hlength : body.length < (body ++ '\x7d' :: rest).length := by
      rw [List.length_append, List.length_cons]
      omega
    have hwhole : blockBody .top 1 (body ++ '\x7d' :: rest ++ t) = body := by
      rw [List.append_assoc, List.cons_append, hbody]
    have hclosed : blockBody .top 1 (body ++ '\x7d' :: rest) = body :=
      (blockBody_of_append (hwhole.symm ▸ hlength)).trans hwhole
    rw [hhead, ← hhead rest] at hbegin
    refine isClosed_of_brace hbegin hopen fun _ => ?_
    rw [hclosed]
    exact hlength

/-- A closed item is read alike whatever stands behind it. -/
theorem next_of_isClosed (closed : isClosed s = true)
    (hnext : next (s ++ t) line = (item, rest ++ t)) (t' : List Char) :
    next (s ++ t') line = (item, rest ++ t') := by
  rw [next_append closed] at hnext
  obtain ⟨hitem, hrest⟩ := Prod.mk.inj hnext
  rw [next_append closed, hitem, List.append_cancel_right hrest]

/-- A closed text begins with an item that is opened. -/
theorem isUnopened_next (closed : isClosed s = true) (line : Nat) :
    (next s line).1.isUnopened = false := by
  rcases isClosed_cases closed with ⟨text, after, rfl, hcut⟩ |
    ⟨text, tail, after, -, hat, hopen, hcut⟩ | ⟨selector, body, after, -, hat, hopen, hcut, -⟩
  · rw [next_rule hcut]
    rfl
  · rw [next_of_stray hat hopen hcut]
    rfl
  · rw [next_of_block hat hopen hcut]
    rfl

/-- Behind a closed item that opens no block the scanner stands at the top. -/
theorem run_taken (closed : isClosed (taken ++ rest) = true)
    (hnext : next (taken ++ rest) line = (item, rest)) (hclear : clear '\x7b' top taken = true) :
    top.run taken = top := by
  have hsemicolon : ∀ text : List Char, top.run text = top → top.run (text ++ [';']) = top := by
    intro text htop
    rw [run_append, htop]
    rfl
  rcases taken_cases closed hnext with ⟨text, rfl, -, htop⟩ |
    ⟨text, rfl, -, -, -, -, htop⟩ | ⟨selector, body, rfl, -, -, htop, -⟩
  · rw [run_cons]
    exact hsemicolon text htop
  · exact hsemicolon text htop
  · have hbrace := (clear_cons.mp (clear_append.mp hclear).2).1
    exact absurd ⟨separates_iff.mpr ⟨htop, rfl⟩, rfl⟩ hbrace

namespace Front

variable {u : List Char}

/-- No item in front of a place is without its brace. -/
theorem isUnopened_of_mem (h : Front t line u items) : ∀ item ∈ items, item.isUnopened = false := by
  induction h with
  | blank => exact nofun
  | @item line b taken rest item items hb hs hne closed hnext _ ih =>
    have hitem := isUnopened_next closed (line + lineFeeds b)
    rw [hnext] at hitem
    exact List.forall_mem_cons.mpr ⟨hitem, ih⟩

/-- The text in front of a place ends in code. -/
theorem endsInCode (h : Front t line u items) : EndsInCode u := by
  induction h with
  | blank hb => exact endsInCode_of_blank hb
  | @item line b taken rest item items hb hs hne closed hnext _ ih =>
    obtain ⟨init, c, hsplit, hc, hquotes⟩ := exists_taken closed (line + lineFeeds b)
    rw [hnext, List.append_assoc, List.append_cons] at hsplit
    rw [List.append_cancel_right hsplit, List.append_assoc]
    exact ih.behind hb hquotes hc

/-- The text in front of a place ends at the top if it holds no brace there. -/
theorem run_top (h : Front t line u items) (hclear : clear '\x7b' top u = true) :
    top.run u = top := by
  induction h with
  | blank hb => exact run_of_blank hb
  | @item line b taken rest item items hb hs hne closed hnext _ ih =>
    obtain ⟨-, hitem⟩ := clear_append.mp hclear
    rw [run_of_blank hb] at hitem
    obtain ⟨htaken, hrest⟩ := clear_append.mp hitem
    rw [List.append_assoc] at closed hnext
    have htop := run_taken closed hnext htaken
    rw [htop] at hrest
    rw [run_append, run_of_blank hb, run_append, htop, ih hrest]

end Front

/-- With other text behind, a closed item is read alike; or it is so if that text has a brace to
open, and otherwise nothing is read but text without one. -/
theorem next_replaced (hne : taken ≠ []) (closed : isClosed (taken ++ rest ++ t) = true)
    (hnext : next (taken ++ rest ++ t) line = (item, rest ++ t))
    (hrest : clear '\x7b' top rest = true → top.run rest = top) :
    (∀ t', next (taken ++ rest ++ t') line = (item, rest ++ t')) ∨
    (∀ t', opens t' = true → next (taken ++ rest ++ t') line = (item, rest ++ t')) ∧
    ∀ t', opens t' = false →
      next (taken ++ rest ++ t') line = (.unopened (taken ++ rest ++ t') line, []) := by
  rcases isClosed_or_stray hne (List.append_assoc .. ▸ closed) (List.append_assoc .. ▸ hnext) with
    hclosed | ⟨text, rfl, hitem, hat, hclear, hbrace, htop, hno⟩
  · exact .inl (next_of_isClosed hclosed hnext)
  right
  have hbehind : ∀ t', opens (rest ++ t') = opens t' :=
    opens_append_of_clear (opens_eq_false.mp hno) (hrest (opens_eq_false.mp hno))
  have hwhole : ∀ t', text ++ [';'] ++ rest ++ t' = text ++ ';' :: (rest ++ t') := by
    intro t'
    rw [List.append_assoc, ← List.append_cons]
  have hat' : ∀ t', (text ++ ';' :: (rest ++ t')).head? ≠ some '@' := by
    intro t'
    rw [List.append_cons]
    exact hat _
  refine ⟨fun t' ht' => ?_, fun t' ht' => ?_⟩
  · rw [hwhole, hitem,
      next_stray_of_opens (hat' t') hclear hbrace htop ((hbehind t').trans ht')]
  · rw [hwhole]
    refine next_of_not_opens (hat' t') ?_ line
    rw [List.append_cons, opens_append_of_clear, hbehind, ht']
    · rw [clear_append, htop]
      exact ⟨hbrace, rfl⟩
    · rw [run_append, htop]
      rfl

/-- Whatever stands behind the place, the items in front of it are read; or they are read if a brace
stands behind it, and otherwise the reading ends with text that has none. The first item is read as
it is whatever follows, and the others are read behind it. -/
theorem Front.read {u : List Char} (h : Front t line u items) :
    (∀ t', all line (u ++ t') = items ++ all (line + lineFeeds u) t') ∨
    ∃ init l,
      (∀ t', opens t' = true → all line (u ++ t') = items ++ all (line + lineFeeds u) t') ∧
      ∀ t', opens t' = false → ∃ x, all line (u ++ t') = init ++ [.unopened x l] := by
  induction h with
  | @blank line b hb =>
    left
    intro t'
    rw [Item.all_append (.blank hb), all_of_blank hb]
  | @item line b taken rest item items hb hs hne closed hnext hfront ih =>
    have hlines : line + lineFeeds (b ++ (taken ++ rest)) =
        line + lineFeeds b + lineFeeds taken + lineFeeds rest := by
      rw [lineFeeds_append, lineFeeds_append, Nat.add_assoc, Nat.add_assoc]
    have hnonempty : taken ++ rest ≠ [] := List.append_ne_nil_of_left_ne_nil hne _
    have hstart : ∀ t', trimStart (taken ++ rest ++ t') = taken ++ rest ++ t' := by
      intro t'
      rw [List.append_assoc, trimStart_append (by rwa [hs]), hs]
    have hcons : ∀ t', next (taken ++ rest ++ t') (line + lineFeeds b) = (item, rest ++ t') →
        all line (b ++ (taken ++ rest) ++ t') =
          item :: all (line + lineFeeds b + lineFeeds taken) (rest ++ t') := by
      intro t' hread
      rw [List.append_assoc]
      exact all_cons line hb (hstart t') (List.append_ne_nil_of_left_ne_nil hnonempty _)
        (List.append_assoc ..) hread
    rcases next_replaced hne closed hnext hfront.run_top with hread | ⟨hread, hunread⟩
    · rcases ih with ih | ⟨init, l, hopens, hnot⟩
      · left
        intro t'
        rw [hcons t' (hread t'), ih, hlines, List.cons_append]
      · right
        refine ⟨item :: init, l, fun t' ht' => ?_, fun t' ht' => ?_⟩
        · rw [hcons t' (hread t'), hopens t' ht', hlines, List.cons_append]
        · obtain ⟨x, hx⟩ := hnot t' ht'
          exact ⟨x, by rw [hcons t' (hread t'), hx, List.cons_append]⟩
    · right
      refine ⟨[], line + lineFeeds b, fun t' ht' => ?_, fun t' ht' => ?_⟩
      · have hbehind : all (line + lineFeeds b + lineFeeds taken) (rest ++ t') =
            items ++ all (line + lineFeeds b + lineFeeds taken + lineFeeds rest) t' :=
          ih.elim (fun h => h t') fun ⟨_, _, h, _⟩ => h t' ht'
        rw [hcons t' (hread t' ht'), hbehind, hlines, List.cons_append]
      · refine ⟨taken ++ rest ++ t', ?_⟩
        rw [List.append_assoc, all_cons line hb (hstart t') (List.append_ne_nil_of_left_ne_nil
          hnonempty _) (List.append_nil _).symm (hunread t' ht'), all_of_blank (b := []) rfl]
        rfl

/-- The items in front of a place are read in front of any text that has a brace to open, and in
front of any other if no text without a brace ends them when nothing stands behind them. -/
theorem Front.all_eq {u : List Char} (h : Front t line u items)
    (ht : opens t' = true ∨ ∀ item ∈ all line u, item.isUnopened = false) :
    all line (u ++ t') = items ++ all (line + lineFeeds u) t' := by
  rcases h.read with hall | ⟨init, l, hopens, hnot⟩
  · exact hall t'
  · rcases ht with ht | hu
    · exact hopens t' ht
    · obtain ⟨x, hx⟩ := hnot [] rfl
      rw [List.append_nil] at hx
      cases hu (.unopened x l) (hx ▸ List.mem_append_right _ (List.mem_singleton_self _))

/-- Otherwise the reading ends at the same item as if nothing stood behind them. -/
theorem Front.all_eq_unopened {u : List Char} (h : Front t line u items) (ht : opens t' = false)
    (hu : ∃ item ∈ all line u, item.isUnopened = true) :
    ∃ init l x y, all line (u ++ t') = init ++ [.unopened x l] ∧
      all line u = init ++ [.unopened y l] := by
  rcases h.read with hall | ⟨init, l, -, hnot⟩
  · have hitems := hall []
    rw [List.append_nil, all_of_blank (b := []) rfl, List.append_nil] at hitems
    obtain ⟨item, hitem, hunopened⟩ := hu
    rw [hitems] at hitem
    cases (h.isUnopened_of_mem item hitem).symm.trans hunopened
  · obtain ⟨x, hx⟩ := hnot t' ht
    obtain ⟨y, hy⟩ := hnot [] rfl
    rw [List.append_nil] at hy
    exact ⟨init, l, x, y, hx, hy⟩

/-- Where the items of a text begin, and how many characters each takes, if so many characters
stand in front of the text. -/
def places (p : Nat) (s : List Char) : List (Nat × Nat) :=
  let start := trimStart s
  if _ : start = [] then []
  else
    let rest := (next start 1).2
    let q := p + (s.takeWhile isBlank).length
    let length := start.length - rest.length
    (q, length) :: places (q + length) rest
termination_by s.length
decreasing_by
  exact Nat.lt_of_lt_of_le (length_next_lt _ ‹_›) (length_dropWhile_le isBlank s)

/-- The first item of a text stands behind its blanks, in front of the others. -/
theorem exists_first {w : List Char} (h : trimStart w ≠ []) (line p : Nat) :
    ∃ b taken rest item, w = b ++ (taken ++ rest) ∧ isBlankText b = true ∧
      trimStart taken = taken ∧ taken ≠ [] ∧
      next (taken ++ rest) (line + lineFeeds b) = (item, rest) ∧
      all line w = item :: all (line + lineFeeds b + lineFeeds taken) rest ∧
      places p w = (p + b.length, taken.length) :: places (p + b.length + taken.length) rest := by
  obtain ⟨taken, hstart, -⟩ :=
    exists_spelled (trimStart w) (line + lineFeeds (w.takeWhile isBlank))
  have hlt := length_next_lt (line + lineFeeds (w.takeWhile isBlank)) h
  generalize hrest : (next (trimStart w) (line + lineFeeds (w.takeWhile isBlank))).2 = rest
    at hstart hlt
  have hne : taken ≠ [] := by
    rintro rfl
    rw [List.nil_append] at hstart
    rw [hstart] at hlt
    exact Nat.lt_irrefl _ hlt
  obtain ⟨c, tail, rfl⟩ := List.exists_cons_of_ne_nil hne
  have hc : isBlank c = false := isBlank_head_trimStart hstart
  have hnext : next (c :: tail ++ rest) (line + lineFeeds (w.takeWhile isBlank)) =
      ((next (c :: tail ++ rest) (line + lineFeeds (w.takeWhile isBlank))).1, rest) := by
    rw [hstart] at hrest
    exact Prod.ext rfl hrest
  have hw : w = w.takeWhile isBlank ++ (c :: tail ++ rest) := by
    rw [← hstart, takeWhile_append_trimStart]
  have htaken : c :: (tail ++ rest) = c :: tail ++ rest := rfl
  have hall := all_cons line (isBlankText_takeWhile w) (trimStart_cons hc (tail ++ rest))
    (List.cons_ne_nil _ _) htaken hnext
  have hplaces : (trimStart w).length - (next (trimStart w) 1).2.length = (c :: tail).length := by
    rw [next_line _ 1 (line + lineFeeds (w.takeWhile isBlank)), hrest, hstart, List.length_append,
      Nat.add_sub_cancel]
  refine ⟨_, c :: tail, rest, _, hw, isBlankText_takeWhile w, trimStart_cons hc tail, hne, hnext,
    ?_, ?_⟩
  · rw [← hall]
    exact congrArg _ hw
  · rw [places, dif_neg h]
    simp only [hplaces]
    rw [next_line _ 1 (line + lineFeeds (w.takeWhile isBlank)), hrest]

/-- The items before one of the items of a text stand in front of its place. -/
theorem exists_front {w : List Char} {before after : List Item} (p : Nat)
    (h : all line w = before ++ item :: after) :
    ∃ u taken rest, w = u ++ (taken ++ rest) ∧ Front (taken ++ rest) line u before ∧
      trimStart taken = taken ∧ taken ≠ [] ∧
      next (taken ++ rest) (line + lineFeeds u) = (item, rest) ∧
      after = all (line + lineFeeds u + lineFeeds taken) rest ∧
      (places p w)[before.length]? = some (p + u.length, taken.length) := by
  induction before generalizing line w p with
  | nil =>
    have hw : trimStart w ≠ [] := by
      intro hblank
      rw [all, dif_pos hblank] at h
      cases h
    obtain ⟨b, taken, rest, first, rfl, hb, hs, hne, hnext, hall, hplaces⟩ := exists_first hw line p
    obtain ⟨rfl, rfl⟩ := List.cons.inj (hall.symm.trans h)
    exact ⟨b, taken, rest, rfl, .blank hb, hs, hne, hnext, rfl, by rw [hplaces]; rfl⟩
  | cons first before ih =>
    have hw : trimStart w ≠ [] := by
      intro hblank
      rw [all, dif_pos hblank] at h
      cases h
    obtain ⟨b, read, left, other, rfl, hb, hs, hne, hnext, hall, hplaces⟩ := exists_first hw line p
    obtain ⟨rfl, hbehind⟩ := List.cons.inj (hall.symm.trans h)
    obtain ⟨u, taken, rest, rfl, hfront, hs', hne', hnext', hafter, hplace⟩ :=
      ih (p + b.length + read.length) hbehind
    have hlines : line + lineFeeds (b ++ (read ++ u)) =
        line + lineFeeds b + lineFeeds read + lineFeeds u := by
      rw [lineFeeds_append, lineFeeds_append, Nat.add_assoc, Nat.add_assoc]
    have hsplit : read ++ (u ++ (taken ++ rest)) = read ++ u ++ (taken ++ rest) :=
      (List.append_assoc ..).symm
    rw [hsplit] at hnext
    have hclosed : isClosed (read ++ u ++ (taken ++ rest)) = true := by
      have hleft : (next (read ++ u ++ (taken ++ rest)) (line + lineFeeds b)).2 ≠ [] := by
        rw [hnext]
        exact List.append_ne_nil_of_right_ne_nil _ (List.append_ne_nil_of_left_ne_nil hne' _)
      exact isClosed_of_rest hleft
    refine ⟨b ++ (read ++ u), taken, rest, ?_, .item hb hs hne hclosed hnext hfront, hs', hne', ?_,
      ?_, ?_⟩
    · rw [List.append_assoc b, List.append_assoc read]
    · rw [hlines, hnext']
    · rw [hlines, hafter]
    · rw [hplaces, List.length_cons, List.getElem?_cons_succ, hplace, List.length_append,
        List.length_append, ← Nat.add_assoc, ← Nat.add_assoc]

end Item

end RouteSheet
