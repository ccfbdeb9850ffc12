import RouteSheet.Proofs.Sheet.Layout
import RouteSheet.Proofs.Text.Index
import RouteSheet.Sheet.Load

/-!
# Loading by byte offsets

The loader goes over the sheet in rounds. A round begins at an offset, passes over blanks, reads
an item from the rest of the sheet, and the next round begins behind the bytes that the item took,
which may be one more than there are. Whatever a round looks at is cut out by offsets: the rest of
the sheet, the texts of the item, its declarations, their properties and values, and what stands
in front of a place whose line is asked for. The parts of an item are cut out here even if it adds
nothing to the sheet. None of these cuts fails, every round moves on, and the rounds read the items
of the sheet.
-/

namespace RouteSheet

open Text Nesting

/-- A declaration, and what stands before and behind its colon if it has one. -/
abbrev CutDeclaration := Declaration × Option (List Char × List Char)

namespace Item

/-- What the loader takes an item apart into. -/
inductive Parts where
  /-- the name of an at-rule, its value, and the value without quotes -/
  | rule (name value unquoted : List Char)
  /-- the declarations of a block -/
  | block (declarations : List CutDeclaration)
  /-- nothing -/
  | none
  deriving Repr, DecidableEq

/-- The parts of an item. -/
def parts : Item → Parts
  | .rule text _ =>
    let (name, rest) := takeRun (!isBlank ·) (trim text)
    .rule name (trim rest) (stripQuotes (trim rest))
  | .block _ body _ bodyLine =>
    .block ((Declaration.ofBody bodyLine body).map fun d => (d, cutTop? ':' d.text))
  | .stray .. | .unopened .. => .none

/-- The bytes of an item. One that ends with the sheet may lack the last of them. -/
def size : Item → Nat
  | .rule text _ => 1 + byteSize text + 1
  | .block selector body _ _ => byteSize selector + 1 + byteSize body + 1
  | .stray text _ => byteSize text + 1
  | .unopened text _ => byteSize text

end Item

/-- What a round reads at an offset: an item and its parts, and how many bytes they take. -/
structure Reading where
  start : Nat
  item : Item
  parts : Item.Parts
  consumed : Nat
  deriving Repr, DecidableEq

/-- The reading of an item at an offset. -/
def Item.reading (item : Item) (start : Nat) : Reading := ⟨start, item, item.parts, item.size⟩

/-- Where the next round begins. -/
def Reading.next (r : Reading) : Nat := r.start + max r.consumed 1

@[simp] theorem Item.reading_next (item : Item) (start : Nat) :
    (item.reading start).next = start + max item.size 1 := rfl

@[simp] theorem Item.reading_item (item : Item) (start : Nat) : (item.reading start).item = item :=
  rfl

@[simp] theorem Item.reading_parts (item : Item) (start : Nat) :
    (item.reading start).parts = item.parts := rfl

/-- A round of the loader: where it begins and what it reads there. The last round may find
nothing but blanks. -/
structure Round where
  pos : Nat
  reading : Option Reading
  deriving Repr, DecidableEq

section Loader

/-- The bytes of the leading blanks. -/
def leadingBytes (s : List Char) : Nat := byteSize s - byteSize (trimStart s)

variable (src : List Char)

/-- The line of an offset, counted in what stands in front of it. -/
def lineAt? (offset : Nat) : Option Nat :=
  (takeBytes? (min offset (byteSize src)) src).map fun before => 1 + lineFeeds before

/-- The declarations of the parts of a body that begins at an offset. -/
def readParts? (bodyOffset : Nat) : List (Nat × List Char) → Option (List CutDeclaration)
  | [] => some []
  | (start, part) :: rest => do
    let line ← lineAt? src (bodyOffset + start + leadingBytes part)
    if (trim part).isEmpty then readParts? bodyOffset rest
    else
      let cut ← cutSlices? ':' (trim part)
      let others ← readParts? bodyOffset rest
      some ((⟨trim part, line⟩, cut) :: others)

/-- The declarations of a body that begins at an offset. -/
def readBody? (bodyOffset : Nat) (body : List Char) : Option (List CutDeclaration) := do
  let parts ← splitSlices? ';' body
  readParts? src bodyOffset parts

/-- Reads an at-rule at an offset. -/
def readRule? (start : Nat) (item : List Char) : Option Reading := do
  let stop := (topIndex? ';' item).getD (byteSize item)
  let line ← lineAt? src start
  let text ← slice? 1 stop item
  let (name, rest) ← wordSlices? (trim text)
  let unquoted ← unquotedSlice? (trim rest)
  some ⟨start, .rule text line, .rule name (trim rest) unquoted, stop + 1⟩

/-- Reads anything else at an offset. -/
def readBlock? (start : Nat) (item : List Char) : Option Reading := do
  let line ← lineAt? src start
  match openingIndex? '\x7b' item with
  | none => some ⟨start, .unopened item line, .none, byteSize item⟩
  | some brace =>
    let selector ← takeBytes? brace item
    match topIndex? ';' selector with
    | some semicolon =>
      let text ← takeBytes? semicolon item
      some ⟨start, .stray text line, .none, semicolon + 1⟩
    | none =>
      let body ← bodySlice? brace item
      let declarations ← readBody? src (start + brace + 1) body
      some ⟨start, .block selector body line (line + lineFeeds selector), .block declarations,
        brace + 1 + byteSize body + 1⟩

/-- Reads the item at an offset. -/
def readItem? (start : Nat) (item : List Char) : Option Reading :=
  if item.head? == some '@' then readRule? src start item else readBlock? src start item

/-- The rounds from an offset on, if no cut fails and no more rounds are needed than given. -/
def rounds? : Nat → Nat → Option (List Round)
  | 0, pos => if byteSize src ≤ pos then some [] else none
  | fuel + 1, pos =>
    if byteSize src ≤ pos then some []
    else do
      let rest ← dropBytes? pos src
      if (trimStart rest).isEmpty then some [⟨pos, none⟩]
      else
        let start := pos + leadingBytes rest
        let item ← dropBytes? start src
        let reading ← readItem? src start item
        let rounds ← rounds? fuel reading.next
        some (⟨pos, some reading⟩ :: rounds)

end Loader

/-- The bytes of the leading blanks are what the text without them lacks. -/
theorem byteSize_takeWhile_isBlank (s : List Char) :
    byteSize (s.takeWhile isBlank) = leadingBytes s := by
  have hs := congrArg byteSize (takeWhile_append_trimStart s)
  rw [byteSize_append] at hs
  unfold leadingBytes
  omega

section Read

variable {src before after s : List Char}

/-- The line of a boundary counts the line feeds in front of it. -/
theorem lineAt?_eq (h : src = before ++ after) :
    lineAt? src (byteSize before) = some (1 + lineFeeds before) := by
  subst h
  simp [lineAt?, takeBytes?_append]

/-- A part of a body is read before the others. -/
theorem readParts?_cons {bodyOffset start : Nat} {part : List Char} {rest : List (List Char)}
    {others : List (Nat × List Char)} (hsrc : src = before ++ (part ++ after))
    (hoffset : bodyOffset + start = byteSize before)
    (hothers : readParts? src bodyOffset others =
      some ((Declaration.ofParts (1 + lineFeeds before + lineFeeds part) rest).map
        fun d => (d, cutTop? ':' d.text))) :
    readParts? src bodyOffset ((start, part) :: others) =
      some ((Declaration.ofParts (1 + lineFeeds before) (part :: rest)).map
        fun d => (d, cutTop? ':' d.text)) := by
  have hblank : src = (before ++ part.takeWhile isBlank) ++ (trimStart part ++ after) := by
    rw [hsrc, List.append_assoc, ← List.append_assoc (part.takeWhile isBlank),
      takeWhile_append_trimStart]
  have hline := lineAt?_eq hblank
  rw [byteSize_append, byteSize_takeWhile_isBlank, ← hoffset, lineFeeds_append,
    ← Nat.add_assoc] at hline
  rw [readParts?, Declaration.ofParts, hline]
  by_cases hempty : (trim part).isEmpty = true
  · simp [hempty, hothers]
  · simp [hempty, hothers, cutSlices?_eq ':' rfl]

/-- The parts of a body are read at the places where they stand in the sheet. -/
theorem readParts?_eq {bodyOffset start : Nat} {part : List Char} {rest : List (List Char)}
    (hsrc : src = before ++ (part ++ rest.flatMap (';' :: ·) ++ after))
    (hoffset : bodyOffset + start = byteSize before) :
    readParts? src bodyOffset (placed ';' start (part :: rest)) =
      some ((Declaration.ofParts (1 + lineFeeds before) (part :: rest)).map
        fun d => (d, cutTop? ':' d.text)) := by
  rw [List.append_assoc] at hsrc
  induction rest generalizing before start part with
  | nil => exact readParts?_cons hsrc hoffset rfl
  | cons next rest ih =>
    refine readParts?_cons hsrc hoffset ?_
    have hbehind : src =
        before ++ (part ++ [';']) ++ (next ++ (rest.flatMap (';' :: ·) ++ after)) := by
      simp [hsrc]
    have hplace : bodyOffset + (start + byteSize part + ';'.utf8Size) =
        byteSize (before ++ (part ++ [';'])) := by
      simp [← hoffset, Nat.add_assoc]
    have hlines : lineFeeds (before ++ (part ++ [';'])) = lineFeeds before + lineFeeds part := by
      rw [lineFeeds_append, lineFeeds_append]
      rfl
    have hnext := ih hbehind hplace
    rwa [hlines, ← Nat.add_assoc] at hnext

/-- The declarations of a body are read where the body stands. -/
theorem readBody?_eq {body : List Char} (hsrc : src = before ++ (body ++ after)) :
    readBody? src (byteSize before) body =
      some ((Declaration.ofBody (1 + lineFeeds before) body).map
        fun d => (d, cutTop? ':' d.text)) := by
  obtain ⟨part, rest, hs⟩ := exists_splitFrom ';' top body
  have hjoin := join_splitFrom hs
  rw [← hjoin] at hsrc
  rw [readBody?, splitSlices?_eq, Declaration.ofBody, splitTop, hs]
  exact readParts?_eq hsrc rfl

/-- An at-rule is read as it is without offsets. -/
theorem readRule?_eq {rest : List Char} (hsrc : src = before ++ '@' :: rest) :
    readRule? src (byteSize before) ('@' :: rest) =
      some ((Item.next ('@' :: rest) (1 + lineFeeds before)).1.reading (byteSize before)) := by
  have hcut : cutTop? ';' ('@' :: rest) =
      (cutTop? ';' rest).map fun cut => ('@' :: cut.1, cut.2) := rfl
  have hat : '@'.utf8Size = 1 := rfl
  rw [readRule?, topIndex?_eq, topOffset?, hcut, lineAt?_eq hsrc]
  cases hrest : cutTop? ';' rest with
  | none =>
    have hslice := slice?_append ['@'] rest []
    simp only [byteSize_cons, byteSize_nil, hat, Nat.add_zero, List.append_nil,
      List.singleton_append] at hslice
    simp [Item.next, hrest, hat, hslice, wordSlices?_eq, unquotedSlice?_eq, Item.reading,
      Item.parts, Item.size]
  | some cut =>
    obtain ⟨text, after⟩ := cut
    obtain ⟨rfl, -⟩ := cutFrom?_eq_some.mp hrest
    have hslice := slice?_append ['@'] text (';' :: after)
    simp only [byteSize_cons, byteSize_nil, hat, Nat.add_zero, List.singleton_append] at hslice
    simp [Item.next, hrest, hat, hslice, wordSlices?_eq, unquotedSlice?_eq, Item.reading,
      Item.parts, Item.size]

/-- Anything else is read as it is without offsets. -/
theorem readBlock?_eq (hsrc : src = before ++ s) (hs : s.head? ≠ some '@') :
    readBlock? src (byteSize before) s =
      some ((Item.next s (1 + lineFeeds before)).1.reading (byteSize before)) := by
  rw [readBlock?, openingIndex?_eq, openingOffset?, lineAt?_eq hsrc]
  cases hopen : cutOpening? '\x7b' s with
  | none =>
    have hnext : Item.next s (1 + lineFeeds before) = (.unopened s (1 + lineFeeds before), []) := by
      unfold Item.next
      split
      · exact absurd rfl hs
      · rw [hopen]
    simp [hnext, Item.reading, Item.parts, Item.size]
  | some cut =>
    obtain ⟨selector, behind⟩ := cut
    obtain ⟨rfl, -⟩ := Item.cutOpening?_brace_eq_some.mp hopen
    cases hstray : cutTop? ';' selector with
    | some cut =>
      obtain ⟨text, tail⟩ := cut
      obtain ⟨hselector, -⟩ := cutFrom?_eq_some.mp hstray
      have htext := takeBytes?_append text (';' :: tail ++ '\x7b' :: behind)
      rw [← List.append_assoc, ← hselector] at htext
      simp [Item.next_of_stray hs hopen hstray, takeBytes?_append, topIndex?_eq, topOffset?, hstray,
        htext, Item.reading, Item.parts, Item.size]
    | none =>
      have hbrace : '\x7b'.utf8Size = 1 := rfl
      have hdrop : dropBytes? (byteSize selector + 1) (selector ++ '\x7b' :: behind) =
          some behind := by
        have h := dropBytes?_append (selector ++ ['\x7b']) behind
        simpa [hbrace] using h
      have hbody : blockBodyAt (byteSize selector) (selector ++ '\x7b' :: behind) =
          blockBody top 1 behind := by
        simp only [blockBodyAt, hdrop]
      obtain ⟨after, hafter⟩ : blockBody top 1 behind <+: behind :=
        blockBody_eq_passed top 1 behind ▸ passed_prefix bodyStep (top, 1) behind
      have hplace :
          src = before ++ (selector ++ ['\x7b']) ++ (blockBody top 1 behind ++ after) := by
        simp [hsrc, hafter]
      have hlines : lineFeeds (before ++ (selector ++ ['\x7b'])) =
          lineFeeds before + lineFeeds selector := by
        rw [lineFeeds_append, lineFeeds_append]
        rfl
      have hread := readBody?_eq hplace
      simp only [hlines, byteSize_append, byteSize_cons, byteSize_nil, hbrace, Nat.add_zero,
        ← Nat.add_assoc] at hread
      simp [Item.next_of_block hs hopen hstray, takeBytes?_append, topIndex?_eq, topOffset?, hstray,
        bodySlice?_eq, hbody, hread, Item.reading, Item.parts, Item.size]

/-- An item is read as it is without offsets. -/
theorem readItem?_eq (hsrc : src = before ++ s) :
    readItem? src (byteSize before) s =
      some ((Item.next s (1 + lineFeeds before)).1.reading (byteSize before)) := by
  unfold readItem?
  split
  · next h =>
    obtain ⟨rest, rfl⟩ := List.head?_eq_some_iff.mp (beq_iff_eq.mp h)
    exact readRule?_eq hsrc
  · next h =>
    refine readBlock?_eq hsrc fun hat => h ?_
    rw [hat]
    rfl

end Read

/-- An item has the bytes that it is spelled with, or one more at the end of the sheet. -/
theorem Item.Spelled.size {item : Item} {taken rest : List Char} (h : item.Spelled taken rest) :
    item.size = byteSize taken ∨ rest = [] ∧ item.size = byteSize taken + 1 := by
  have hsizes : ';'.utf8Size = 1 ∧ '@'.utf8Size = 1 ∧ '\x7b'.utf8Size = 1 ∧ '\x7d'.utf8Size = 1 :=
    ⟨rfl, rfl, rfl, rfl⟩
  cases h with
  | rule => exact .inl (by simp [Item.size, hsizes, Nat.add_assoc])
  | lastRule => exact .inr ⟨rfl, by simp [Item.size, hsizes]⟩
  | block => exact .inl (by simp [Item.size, hsizes, Nat.add_assoc])
  | lastBlock => exact .inr ⟨rfl, by simp [Item.size, hsizes, Nat.add_assoc]⟩
  | stray => exact .inl (by simp [Item.size, hsizes])
  | unopened => exact .inl rfl

/-- An item takes at least one character. -/
theorem Item.taken_ne_nil {s taken rest : List Char} {item : Item} {line : Nat} (hne : s ≠ [])
    (hnext : Item.next s line = (item, rest)) (htaken : s = taken ++ rest) : taken ≠ [] := by
  rintro rfl
  have hshort := Item.length_next_lt line hne
  rw [hnext, htaken] at hshort
  exact absurd hshort (Nat.lt_irrefl _)

/-- Rounds from an offset on: each begins and reads at a boundary and moves on, and where it ends
the next one begins. -/
inductive Forward (src : List Char) : Nat → List Round → Prop
  | nil {pos : Nat} : Forward src pos []
  /-- nothing but blanks is left -/
  | blank {pos : Nat} (boundary : IsBoundary src pos) : Forward src pos [⟨pos, none⟩]
  | cons {pos : Nat} {reading : Reading} {rounds : List Round} (boundary : IsBoundary src pos)
      (start : IsBoundary src reading.start) (moves : pos < reading.next)
      (rest : Forward src reading.next rounds) : Forward src pos (⟨pos, some reading⟩ :: rounds)

/-- The rounds from an offset on are found with so many at hand: they move forward, are at most as
many as a text has bytes, and read the items of the text. -/
def ReadsFrom (src : List Char) (fuel pos line : Nat) (s : List Char) : Prop :=
  ∃ rounds, rounds? src fuel pos = some rounds ∧ rounds.length ≤ byteSize s ∧
    Forward src pos rounds ∧
    (rounds.filterMap Round.reading).map (fun r => (r.item, r.parts)) =
      (Item.all line s).map fun item => (item, item.parts)

section Rounds

variable {src before s : List Char} {fuel : Nat}

/-- At the end of the sheet and behind it no round begins. -/
theorem readsFrom_nil {pos : Nat} (h : byteSize src ≤ pos) (fuel line : Nat) :
    ReadsFrom src fuel pos line [] := by
  refine ⟨[], ?_, Nat.zero_le _, .nil, ?_⟩
  · cases fuel <;> simp [rounds?, h]
  · simp [Item.all_of_blank isBlankText_nil]

/-- A place with text behind it lies before the end. -/
theorem not_byteSize_le (hsrc : src = before ++ s) (hne : s ≠ []) :
    ¬byteSize src ≤ byteSize before := by
  have hpos := byteSize_pos hne
  rw [hsrc, byteSize_append]
  omega

/-- A round that finds nothing but blanks is the last one. -/
theorem readsFrom_blank (hsrc : src = before ++ s) (hs : isBlankText s = true) (hne : s ≠ []) :
    ReadsFrom src (fuel + 1) (byteSize before) (1 + lineFeeds before) s := by
  have hrest : dropBytes? (byteSize before) src = some s := by
    rw [hsrc, dropBytes?_append]
  refine ⟨[⟨byteSize before, none⟩], ?_, byteSize_pos hne, .blank ⟨before, s, hsrc, rfl⟩, ?_⟩
  · rw [rounds?, if_neg (not_byteSize_le hsrc hne), hrest]
    simp [trimStart_eq_nil.mpr hs]
  · simp [Item.all_of_blank hs]

/-- A round that reads an item moves on to where the item ends, and the rounds from there on follow
it. -/
theorem readsFrom_item {lead taken rest : List Char} {item : Item} (hlead : isBlankText lead = true)
    (hs : trimStart s = s) (hne : s ≠ []) (hsrc : src = before ++ (lead ++ s))
    (hnext : Item.next s (1 + lineFeeds (before ++ lead)) = (item, rest))
    (htaken : s = taken ++ rest)
    (hrest : ReadsFrom src fuel (byteSize (before ++ lead) + max item.size 1)
      (1 + lineFeeds (before ++ lead) + lineFeeds taken) rest) :
    ReadsFrom src (fuel + 1) (byteSize before) (1 + lineFeeds before) (lead ++ s) := by
  obtain ⟨rounds, hrounds, hlength, hforward, hitems⟩ := hrest
  have hplace : src = before ++ lead ++ s := by
    rw [hsrc, List.append_assoc]
  have hstart : trimStart (lead ++ s) = s := by
    rw [trimStart_append_of_blank hlead, hs]
  have hbytes : byteSize before + leadingBytes (lead ++ s) = byteSize (before ++ lead) := by
    simp [leadingBytes, hstart]
  refine ⟨⟨byteSize before, some (item.reading (byteSize (before ++ lead)))⟩ :: rounds,
    ?_, ?_, .cons ⟨before, _, hsrc, rfl⟩ ⟨_, s, hplace, rfl⟩ ?_ hforward, ?_⟩
  · have hinside := not_byteSize_le hsrc (List.append_ne_nil_of_right_ne_nil lead hne)
    have hbehind : dropBytes? (byteSize before) src = some (lead ++ s) := by
      rw [hsrc, dropBytes?_append]
    have hitem : dropBytes? (byteSize (before ++ lead)) src = some s := by
      rw [hplace, dropBytes?_append]
    have hread := readItem?_eq hplace
    rw [hnext] at hread
    rw [rounds?, if_neg hinside, hbehind]
    simp [-byteSize_append, hstart, hne, hbytes, hitem, hread, hrounds]
  · have hpos := byteSize_pos (Item.taken_ne_nil hne hnext htaken)
    rw [List.length_cons, htaken, byteSize_append, byteSize_append]
    omega
  · rw [Item.reading_next, byteSize_append]
    omega
  · rw [lineFeeds_append, ← Nat.add_assoc] at hnext hitems
    simp [Item.all_cons (1 + lineFeeds before) hlead hs hne htaken hnext, hitems]

/-- The rounds from the place of a text on read its items. Behind an item that lacks its last byte
the next round would begin behind the sheet, and there is none. -/
theorem readsFrom_place (hsrc : src = before ++ s) (hfuel : byteSize s ≤ fuel) :
    ReadsFrom src fuel (byteSize before) (1 + lineFeeds before) s := by
  induction fuel generalizing before s with
  | zero =>
    obtain rfl := byteSize_eq_zero.mp (Nat.le_zero.mp hfuel)
    exact readsFrom_nil (by simp [hsrc]) 0 _
  | succ fuel ih =>
    obtain ⟨lead, start, hlead, htrim, rfl⟩ :
        ∃ lead start, isBlankText lead = true ∧ trimStart start = start ∧ s = lead ++ start :=
      ⟨_, _, isBlankText_takeWhile s, trimStart_trimStart s, (takeWhile_append_trimStart s).symm⟩
    by_cases hne : start = []
    · subst hne
      rw [List.append_nil] at hsrc ⊢
      by_cases hnil : lead = []
      · subst hnil
        exact readsFrom_nil (by simp [hsrc]) _ _
      · exact readsFrom_blank hsrc hlead hnil
    · obtain ⟨taken, htaken, hspelled, -⟩ :=
        Item.exists_spelled start (1 + lineFeeds (before ++ lead))
      cases hnext : Item.next start (1 + lineFeeds (before ++ lead)) with
      | mk item rest =>
        simp only [hnext] at htaken hspelled
        refine readsFrom_item hlead htrim hne hsrc hnext htaken ?_
        have hbytes := congrArg byteSize htaken
        rw [byteSize_append] at hbytes hfuel
        have htook := byteSize_pos (Item.taken_ne_nil hne hnext htaken)
        have hplace : src = before ++ lead ++ taken ++ rest := by
          simp [hsrc, htaken]
        rcases hspelled.size with hsize | ⟨rfl, hsize⟩
        · have hmax : max item.size 1 = byteSize taken := by omega
          have hrest := ih hplace (by omega)
          rwa [byteSize_append (before ++ lead), lineFeeds_append (before ++ lead), ← hmax,
            ← Nat.add_assoc] at hrest
        · refine readsFrom_nil ?_ fuel _
          rw [hplace, hsize]
          simp
          omega

end Rounds

/-- A comment does not take more bytes once it is blanked out. -/
theorem byteSize_blankComments_le (text : List Char) :
    byteSize (blankComments text) ≤ byteSize text := by
  have hblank : ' '.utf8Size = 1 ∧ '/'.utf8Size = 1 ∧ '*'.utf8Size = 1 := ⟨rfl, rfl, rfl⟩
  have hout : ∀ c, (blankedOut c).utf8Size ≤ c.utf8Size := by
    intro c
    have hc := c.utf8Size_pos
    unfold blankedOut
    split
    · next h => exact h ▸ Nat.le_refl _
    · omega
  have hfrom : ∀ p s, byteSize (blankCommentsFrom p s) ≤ byteSize s := by
    intro p s
    fun_induction blankCommentsFrom p s with
    | case1 => exact Nat.le_refl _
    | case2 s ih =>
      simp only [byteSize_cons]
      omega
    | case3 c s hs ih => simpa using ih
    | case4 q c s ih => simpa using ih
    | case5 b c s hc ih =>
      have := c.utf8Size_pos
      simp only [byteSize_cons]
      omega
    | case6 b c s hc ih =>
      have := hout c
      simp only [byteSize_cons]
      omega
  exact hfrom .code text

/-- A rule that lacks its semicolon is taken to have it. -/
example : rounds? " @é".toList 4 0 =
    some [⟨0, some ⟨1, .rule ['é'] 1, .rule ['é'] [] [], 4⟩⟩] := by
  decide

end RouteSheet
