import RouteSheet.Proofs.Sheet.Complete
import RouteSheet.Proofs.Text.Place

/-!
# Where items stand in a sheet

The items of a sheet stand in it one behind the other, with nothing that shows between them, and
so do the declarations in the body of a block. Each begins with the first character that shows
behind the one before, and has the line of that character.
-/

namespace RouteSheet

open Text Nesting

/-- The parts of a body stand in the text from a place on, with a separator behind each. A part
that shows nothing declares nothing; any other is a declaration on the line of the first character
that shows in it. -/
inductive Declaration.Laid (text : List Char) : Nat → List (List Char) → List Declaration → Prop
  | nil {p : Nat} : Laid text p [] []
  | blank {p : Nat} {part : List Char} {parts : List (List Char)} {ds : List Declaration}
      (stands : part <+: (blankComments text).drop p)
      (hidden : ∀ i, p ≤ i → i < p + part.length → ¬Shown text i)
      (rest : Laid text (p + part.length + 1) parts ds) : Laid text p (part :: parts) ds
  | cons {p q : Nat} {part : List Char} {parts : List (List Char)} {ds : List Declaration}
      (stands : part <+: (blankComments text).drop p) (first : FirstShown text p q)
      (inside : q < p + part.length) (rest : Laid text (p + part.length + 1) parts ds) :
      Laid text p (part :: parts) (⟨trim part, lineOf text q⟩ :: ds)

namespace Item

/-- The line that an item begins on. -/
def line : Item → Nat
  | .rule _ line | .block _ _ line _ | .stray _ line | .unopened _ line => line

/-- What an item is in the text that it was read from, and the text behind it. Its last character
is missing only at the end of the text. -/
inductive Spelled : Item → List Char → List Char → Prop
  | rule (s : List Char) (line : Nat) (rest : List Char) :
      Spelled (.rule s line) ('@' :: (s ++ [';'])) rest
  | lastRule (s : List Char) (line : Nat) : Spelled (.rule s line) ('@' :: s) []
  | block (selector body : List Char) (line : Nat) (rest : List Char) :
      Spelled (.block selector body line (line + lineFeeds selector))
        (selector ++ '\x7b' :: (body ++ ['\x7d'])) rest
  | lastBlock (selector body : List Char) (line : Nat) :
      Spelled (.block selector body line (line + lineFeeds selector))
        (selector ++ '\x7b' :: body) []
  | stray (s : List Char) (line : Nat) (rest : List Char) :
      Spelled (.stray s line) (s ++ [';']) rest
  | unopened (s : List Char) (line : Nat) : Spelled (.unopened s line) s []

/-- The item stands at a place, has its line, and the declarations of its body stand in it. -/
structure StandsAt (text : List Char) (q : Nat) (s : List Char) (item : Item) : Prop where
  stands : s <+: (blankComments text).drop q
  spelled : item.Spelled s ((blankComments text).drop (q + s.length))
  line : item.line = lineOf text q
  declarations {selector body : List Char} {line bodyLine : Nat}
    (h : item = .block selector body line bodyLine) :
    Declaration.Laid text (q + selector.length + 1) (splitTop ';' body)
      (Declaration.ofBody bodyLine body)

/-- The items stand in the text from a place on, each at the first place that shows a character
behind the item before, and nothing shows behind the last one. -/
inductive Laid (text : List Char) : Nat → List Item → Prop
  | nil {p : Nat} (hidden : ∀ i, p ≤ i → ¬Shown text i) : Laid text p []
  | cons {p q : Nat} {s : List Char} {item : Item} {items : List Item}
      (first : FirstShown text p q) (stands : item.StandsAt text q s)
      (rest : Laid text (q + s.length) items) : Laid text p (item :: items)

end Item

namespace Declaration

variable {text part : List Char} {rest : List (List Char)} {p : Nat}

/-- A part of a body is laid out before the others. -/
theorem laid_part (hpart : part <+: (blankComments text).drop p)
    (hrest : Laid text (p + part.length + 1) rest (ofParts (lineOf text (p + part.length)) rest)) :
    Laid text p (part :: rest) (ofParts (lineOf text p) (part :: rest)) := by
  have hline := lineOf_add hpart
  rw [hline] at hrest
  rw [ofParts]
  cases hblank : isBlankText part with
  | true =>
    rw [trim_eq_nil hblank]
    exact .blank hpart (not_shown_of_blank hpart hblank) hrest
  | false =>
    have hne := ne_nil_of_isTrimmed (isTrimmed_trim hblank)
    have hlead := lineOf_add ((List.takeWhile_prefix isBlank).trans hpart)
    have hinside := length_takeWhile_isBlank_lt hblank
    rw [List.isEmpty_eq_false_iff.mpr hne, ← hlead]
    exact .cons hpart (firstShown_of_not_blank hpart hblank) (Nat.add_lt_add_left hinside p) hrest

/-- The parts behind a separator are laid out behind it. -/
theorem laid_behind (h : rest.flatMap (';' :: ·) <+: (blankComments text).drop p) :
    Laid text (p + 1) rest (ofParts (lineOf text p) rest) := by
  induction rest generalizing p with
  | nil => exact .nil
  | cons part rest ih =>
    have hpart : [';'] ++ (part ++ rest.flatMap (';' :: ·)) <+: (blankComments text).drop p := h
    have hline : lineOf text (p + 1) = lineOf text p :=
      lineOf_add ((List.prefix_append [';'] _).trans hpart)
    have hbehind := prefix_drop_add hpart
    rw [← hline]
    exact laid_part ((List.prefix_append part _).trans hbehind) (ih (prefix_drop_add hbehind))

/-- The declarations of a body are laid out where the body stands. -/
theorem laid_ofBody {body : List Char} (h : body <+: (blankComments text).drop p) :
    Laid text p (splitTop ';' body) (ofBody (lineOf text p) body) := by
  obtain ⟨part, rest, hsplit⟩ := exists_splitFrom ';' top body
  have hjoin := join_splitFrom hsplit
  rw [← hjoin] at h
  rw [ofBody, splitTop, hsplit]
  exact laid_part ((List.prefix_append part _).trans h) (laid_behind (prefix_drop_add h))

/-- The declarations of a block are laid out behind its selector and the brace. -/
theorem laid_block {selector body : List Char}
    (h : selector ++ '\x7b' :: body <+: (blankComments text).drop p) :
    Laid text (p + selector.length + 1) (splitTop ';' body)
      (ofBody (lineOf text p + lineFeeds selector) body) := by
  have hopen : (selector ++ ['\x7b']) ++ body <+: (blankComments text).drop p := by
    simpa using h
  have hbody := prefix_drop_add hopen
  have hline := lineOf_add ((List.prefix_append _ body).trans hopen)
  rw [lineFeeds_append] at hline
  rw [List.length_append] at hbody hline
  rw [show lineOf text p + lineFeeds selector = lineOf text (p + (selector.length + 1)) from
    hline.symm]
  exact laid_ofBody hbody

end Declaration

namespace Item

/-- An item is read off the beginning of a text. -/
theorem exists_spelled (s : List Char) (line : Nat) :
    ∃ taken, s = taken ++ (next s line).2 ∧ (next s line).1.Spelled taken (next s line).2 ∧
      (next s line).1.line = line := by
  unfold next
  split
  · next rest =>
    split
    · next text after h =>
      obtain ⟨rfl, -⟩ := cutFrom?_eq_some.mp h
      exact ⟨'@' :: (text ++ [';']), by simp, .rule text line after, rfl⟩
    · exact ⟨'@' :: rest, by simp, .lastRule rest line, rfl⟩
  · split
    · exact ⟨s, by simp, .unopened s line, rfl⟩
    · next selector after ho =>
      obtain ⟨hs, -⟩ := cutOpening?_brace_eq_some.mp ho
      split
      · next text tail hc =>
        obtain ⟨rfl, -⟩ := cutFrom?_eq_some.mp hc
        refine ⟨text ++ [';'], ?_, .stray text line _, rfl⟩
        rw [hs, List.append_assoc, List.cons_append, drop_behind]
        simp
      · have hcases := blockBody_cases .top 1 after
        generalize blockBody .top 1 after = body at hcases ⊢
        rcases hcases with rfl | ⟨rest, rfl, -⟩
        · have hend : body.drop (body.length + 1) = [] := List.drop_of_length_le (Nat.le_succ _)
          refine ⟨selector ++ '\x7b' :: body, ?_, ?_, rfl⟩
          · simp [hs]
          · simp only [hend]
            exact .lastBlock selector body line
        · refine ⟨selector ++ '\x7b' :: (body ++ ['\x7d']), ?_, .block selector body line _, rfl⟩
          simp [hs]

variable {text : List Char}

/-- An item that is spelled at a place on its line stands there. -/
theorem standsAt_of_spelled {item : Item} {s rest : List Char} {q : Nat}
    (hs : (blankComments text).drop q = s ++ rest) (hspelled : item.Spelled s rest)
    (hline : item.line = lineOf text q) : item.StandsAt text q s := by
  have hstands : s <+: (blankComments text).drop q := ⟨rest, hs.symm⟩
  refine ⟨hstands, ?_, hline, ?_⟩
  · rwa [drop_add hs]
  · intro selector body line bodyLine h
    subst h
    obtain rfl : line = lineOf text q := hline
    cases hspelled with
    | block =>
      have hbody : selector ++ '\x7b' :: body <+: selector ++ '\x7b' :: (body ++ ['\x7d']) :=
        ⟨['\x7d'], by simp⟩
      exact Declaration.laid_block (hbody.trans hstands)
    | lastBlock => exact Declaration.laid_block hstands

/-- The items of a text are laid out where the text stands. What is still to be read is what is left
behind the first item. -/
theorem laid_all (line : Nat) (s : List Char) {p : Nat} (hs : (blankComments text).drop p = s)
    (hline : line = lineOf text p) : Laid text p (all line s) := by
  fun_induction all line s generalizing p with
  | case1 =>
    next line s start h =>
    refine .nil (not_shown_of_blank_rest ?_)
    rw [hs]
    exact trimStart_eq_nil.mp h
  | case2 =>
    next line s start h startLine found taken ih =>
    have hblank : isBlankText s = false := trimStart_ne_nil.mp h
    have hcode : s <+: (blankComments text).drop p := hs ▸ List.prefix_refl s
    have hlead := lineOf_add ((List.takeWhile_prefix isBlank).trans hcode)
    rw [← hline] at hlead
    obtain ⟨read, hread, hspelled, hitem⟩ := exists_spelled start startLine
    have htaken : taken = read := by
      have hlength : start.length - found.2.length = read.length := by
        rw [congrArg List.length hread, List.length_append, Nat.add_sub_cancel]
      have htake : start.take read.length = read := by
        rw [hread, List.take_left]
      rw [← htake, ← hlength]
    have hstart : (blankComments text).drop (p + (s.takeWhile isBlank).length) = read ++ found.2 :=
      (drop_add (hs.trans (takeWhile_append_trimStart s).symm)).trans hread
    refine .cons (firstShown_of_not_blank hcode hblank)
      (standsAt_of_spelled hstart hspelled (hitem.trans hlead.symm)) (ih (drop_add hstart) ?_)
    rw [htaken, lineOf_add ⟨_, hstart.symm⟩, hlead]

/-- The items of a sheet are laid out from its beginning to its end. -/
theorem laid_ofSheet (text : List Char) : Laid text 0 (ofSheet text) :=
  laid_all 1 _ rfl rfl

end Item

end RouteSheet
