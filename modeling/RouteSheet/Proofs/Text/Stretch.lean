import RouteSheet.Proofs.Text.Excision
import RouteSheet.Proofs.Text.Split

/-!
# The comments of a text

A text consists of stretches: characters of code, quoted runs and comments, of which only the
last may lack its end. What a stretch is, is told by its first two characters and by where its
end first stands, so each text consists of stretches in one way. Comments are blanked out stretch
by stretch, and in what is left none opens, so blanking it out again changes nothing.
-/

namespace RouteSheet.Text

open Nesting

/-- A part of a text. The flag says that a quoted run or a comment has its end. -/
inductive Stretch where
  | code (c : Char)
  | quoted (quote : Char) (inner : List Char) (closed : Bool)
  | comment (inner : List Char) (closed : Bool)
  deriving DecidableEq

namespace Stretch

/-- The stretch as it is written. -/
def text : Stretch → List Char
  | code c => [c]
  | quoted quote inner closed => quote :: (inner ++ if closed then [quote] else [])
  | comment inner closed => '/' :: '*' :: (inner ++ if closed then ['*', '/'] else [])

/-- What is left of the stretch: a comment is blanked out, and all else stays. -/
def left : Stretch → List Char
  | code c => (code c).text
  | quoted quote inner closed => (quoted quote inner closed).text
  | comment inner closed => (comment inner closed).text.map blankedOut

/-- The stretch stands in front of a text. Code opens no quote and no comment. A quoted run ends
at the next quote of its kind, a comment at the first star and slash behind its opening, and both
end with the text if there is none. -/
def StandsBefore : Stretch → List Char → Prop
  | code c, rest => isQuote c = false ∧ ¬(c = '/' ∧ rest.head? = some '*')
  | quoted quote inner closed, rest =>
    isQuote quote = true ∧ quote ∉ inner ∧ (closed = false → rest = [])
  | comment inner closed, rest =>
    FreeOf ['*', '/'] inner ((if closed then ['*', '/'] else []) ++ rest) ∧
      (closed = false → rest = [])

end Stretch

/-- The text consists of the stretches, one behind the other. -/
inductive Consists : List Char → List Stretch → Prop
  | nil : Consists [] []
  | cons {stretch : Stretch} {rest : List Char} {stretches : List Stretch}
      (first : stretch.StandsBefore rest) (others : Consists rest stretches) :
      Consists (stretch.text ++ rest) (stretch :: stretches)

/-- No comment opens in the text: a quote is open in front of every slash with a star behind it. -/
def OpensNoComment (text : List Char) : Prop :=
  ∀ before after, text = before ++ '/' :: '*' :: after → (top.run before).quote ≠ none

/-- The stretch that a text begins with, and the text behind it. -/
def firstStretch (c : Char) (s : List Char) : Stretch × List Char :=
  if isQuote c then
    match cutAtChar? c s with
    | some (inner, rest) => (.quoted c inner true, rest)
    | none => (.quoted c s false, [])
  else if c = '/' ∧ s.head? = some '*' then
    match cutAtPhrase? ['*', '/'] s.tail with
    | some (inner, rest) => (.comment inner true, rest)
    | none => (.comment s.tail false, [])
  else (.code c, s)

section

variable {s rest inner : List Char} {stretch : Stretch} {stretches : List Stretch}

/-- Quoted text stays, whatever stands in it. -/
theorem blankCommentsFrom_quoted {q : Char} (h : q ∉ inner) (rest : List Char) :
    blankCommentsFrom (.quoted q) (inner ++ rest) =
      inner ++ blankCommentsFrom (.quoted q) rest := by
  induction inner with
  | nil => rfl
  | cons c inner ih =>
    rw [List.mem_cons, not_or] at h
    rw [List.cons_append, blankCommentsFrom, if_neg (Ne.symm h.1), ih h.2, List.cons_append]

/-- A comment is blanked out up to where its end first stands. -/
theorem blankCommentsFrom_comment {afterStar : Bool} (h : FreeOf ['*', '/'] inner rest)
    (hstar : afterStar = true → inner.head? ≠ some '/') :
    ∃ afterStar', blankCommentsFrom (.comment afterStar) (inner ++ rest) =
      inner.map blankedOut ++ blankCommentsFrom (.comment afterStar') rest := by
  induction inner generalizing afterStar with
  | nil => exact ⟨afterStar, rfl⟩
  | cons c inner ih =>
    obtain ⟨hend, hinner⟩ := h
    have hopen : ¬(afterStar && c == '/') = true := by
      rw [Bool.and_eq_true, beq_iff_eq]
      rintro ⟨ha, rfl⟩
      exact hstar ha rfl
    have hnext : (c == '*') = true → inner.head? ≠ some '/' := by
      intro hc hslash
      obtain ⟨inner, rfl⟩ := List.head?_eq_some_iff.mp hslash
      exact hend ⟨inner ++ rest, by rw [beq_iff_eq.mp hc]; rfl⟩
    obtain ⟨afterStar', hblank⟩ := ih hinner hnext
    exact ⟨afterStar', by
      rw [List.cons_append, blankCommentsFrom, if_neg hopen, hblank, List.map_cons,
        List.cons_append]⟩

/-- Behind a stretch the text is code again. -/
theorem blankCommentsFrom_stretch (h : stretch.StandsBefore rest) :
    blankCommentsFrom .code (stretch.text ++ rest) =
      stretch.left ++ blankCommentsFrom .code rest := by
  cases stretch with
  | code c =>
    obtain ⟨hquote, hmark⟩ := h
    rw [Stretch.left, Stretch.text, List.singleton_append, blankCommentsFrom_code_cons hmark,
      hquote]
    rfl
  | quoted q inner closed =>
    obtain ⟨hquote, hinner, hrest⟩ := h
    have hmark : ∀ t : List Char, ¬(q = '/' ∧ t.head? = some '*') := by
      rintro t ⟨rfl, -⟩
      exact absurd hquote (by decide)
    rw [Stretch.left, Stretch.text, List.cons_append, blankCommentsFrom_code_cons (hmark _),
      if_pos hquote, List.append_assoc, blankCommentsFrom_quoted hinner]
    cases closed with
    | true => simp [blankCommentsFrom]
    | false => simp [hrest rfl, blankCommentsFrom]
  | comment inner closed =>
    obtain ⟨hinner, hrest⟩ := h
    have hstar : false = true → inner.head? ≠ some '/' := fun h => absurd h Bool.false_ne_true
    obtain ⟨afterStar, hblank⟩ := blankCommentsFrom_comment hinner hstar
    rw [Stretch.left, Stretch.text, List.cons_append, List.cons_append, List.append_assoc,
      blankCommentsFrom, hblank]
    cases closed with
    | true => simp [blankCommentsFrom, blankedOut]
    | false => simp [hrest rfl, blankCommentsFrom, blankedOut]

/-- Comments are blanked out stretch by stretch. -/
theorem blankComments_of_consists (h : Consists s stretches) :
    blankComments s = stretches.flatMap Stretch.left := by
  induction h with
  | nil => rfl
  | cons first _ ih =>
    rw [blankComments] at ih ⊢
    rw [blankCommentsFrom_stretch first, ih, List.flatMap_cons]

/-- A text is its stretches, one behind the other. -/
theorem text_of_consists (h : Consists s stretches) : stretches.flatMap Stretch.text = s := by
  induction h with
  | nil => rfl
  | cons _ _ ih => rw [List.flatMap_cons, ih]

/-- A text begins with its first stretch. -/
theorem standsBefore_firstStretch (c : Char) (s : List Char) :
    (firstStretch c s).1.StandsBefore (firstStretch c s).2 ∧
      c :: s = (firstStretch c s).1.text ++ (firstStretch c s).2 := by
  rw [firstStretch]
  split
  · next hquote =>
    cases hcut : cutAtChar? c s with
    | none =>
      refine ⟨⟨hquote, fun hc => ?_, fun _ => rfl⟩, by simp [Stretch.text]⟩
      obtain ⟨inner, rest, rfl, hinner⟩ := List.eq_append_cons_of_mem hc
      rw [cutAtChar?_append hinner] at hcut
      cases hcut
    | some cut =>
      obtain ⟨inner, rest⟩ := cut
      obtain ⟨rfl, hinner⟩ := of_cutAtChar? hcut
      exact ⟨⟨hquote, hinner, nofun⟩, by simp [Stretch.text]⟩
  · next hquote =>
    split
    · next hmark =>
      obtain ⟨rfl, hstar⟩ := hmark
      obtain ⟨s, rfl⟩ := List.head?_eq_some_iff.mp hstar
      rw [List.tail_cons]
      cases hcut : cutAtPhrase? ['*', '/'] s with
      | none =>
        have hfree := (cutAtPhrase?_eq_none (List.cons_ne_nil _ _)).mp hcut
        exact ⟨⟨hfree, fun _ => rfl⟩, by simp [Stretch.text]⟩
      | some cut =>
        obtain ⟨inner, rest⟩ := cut
        obtain ⟨rfl, hfree⟩ := cutAtPhrase?_eq_some hcut
        exact ⟨⟨hfree, nofun⟩, by simp [Stretch.text]⟩
    · next hmark => exact ⟨⟨(Bool.not_eq_true _).mp hquote, hmark⟩, rfl⟩

/-- A text begins with no other stretch. -/
theorem firstStretch_eq {c : Char} (h : stretch.StandsBefore rest)
    (hs : c :: s = stretch.text ++ rest) : firstStretch c s = (stretch, rest) := by
  rw [firstStretch]
  cases stretch with
  | code d =>
    obtain ⟨hquote, hmark⟩ := h
    obtain ⟨rfl, rfl⟩ := List.cons.inj hs
    rw [if_neg ((Bool.not_eq_true _).mpr hquote), if_neg hmark]
  | quoted q inner closed =>
    obtain ⟨hquote, hinner, hrest⟩ := h
    obtain ⟨rfl, rfl⟩ := List.cons.inj hs
    rw [if_pos hquote]
    cases closed with
    | true => simp [cutAtChar?_append hinner]
    | false => simp [hrest rfl, cutAtChar?_eq_none hinner]
  | comment inner closed =>
    obtain ⟨hinner, hrest⟩ := h
    obtain ⟨rfl, rfl⟩ := List.cons.inj hs
    have hphrase : ['*', '/'] ≠ [] := List.cons_ne_nil _ _
    rw [if_neg (by decide), if_pos ⟨rfl, rfl⟩]
    cases closed with
    | true =>
      have hcut := cutAtPhrase?_of_freeOf hphrase hinner
      rw [List.cons_append, List.cons_append, List.nil_append] at hcut
      simp [hcut]
    | false =>
      obtain rfl := hrest rfl
      have hcut := (cutAtPhrase?_eq_none hphrase).mpr hinner
      simp [hcut]

/-- A stretch takes at least one character. -/
theorem Stretch.text_ne_nil (stretch : Stretch) : stretch.text ≠ [] := by
  cases stretch <;> exact List.cons_ne_nil _ _

/-- The empty text has no stretches. -/
theorem consists_nil_iff : Consists [] stretches ↔ stretches = [] := by
  constructor
  · generalize hs : [] = s
    rintro (_ | ⟨_, _⟩)
    · rfl
    · next stretch rest _ _ _ =>
      exact absurd (List.append_eq_nil_iff.mp hs.symm).1 stretch.text_ne_nil
  · rintro rfl
    exact .nil

/-- The first stretch of a text stands in front of the stretches of the rest. -/
theorem consists_cons_iff {c : Char} : Consists (c :: s) stretches ↔
    ∃ others, stretches = (firstStretch c s).1 :: others ∧
      Consists (firstStretch c s).2 others := by
  constructor
  · generalize hs : c :: s = t
    rintro (_ | ⟨first, others⟩)
    · cases hs
    · rw [firstStretch_eq first hs]
      exact ⟨_, rfl, others⟩
  · rintro ⟨others, rfl, hothers⟩
    obtain ⟨hfirst, hs⟩ := standsBefore_firstStretch c s
    rw [hs]
    exact .cons hfirst hothers

/-- Every text consists of stretches in exactly one way. -/
theorem exists_consists_iff (s : List Char) :
    ∃ stretches, ∀ other, Consists s other ↔ other = stretches := by
  cases s with
  | nil => exact ⟨[], fun _ => consists_nil_iff⟩
  | cons c s =>
    have hshorter : (firstStretch c s).2.length < (c :: s).length := by
      have hpos := List.length_pos_iff.mpr (firstStretch c s).1.text_ne_nil
      have hlength := congrArg List.length (standsBefore_firstStretch c s).2
      rw [List.length_append] at hlength
      omega
    obtain ⟨others, hothers⟩ := exists_consists_iff (firstStretch c s).2
    refine ⟨(firstStretch c s).1 :: others, fun other => ?_⟩
    simp [consists_cons_iff, hothers]
termination_by s.length
decreasing_by exact hshorter

/-- In what is left, a quote is open in front of every slash with a star behind it. Outside quotes
the two would stand in the text as well and open a comment. -/
theorem quote_ne_none_of_mark {p : Passage} {before after : List Char}
    (h : blankCommentsFrom p s = before ++ '/' :: '*' :: after) :
    before.foldl quoteNext p.quote ≠ none := by
  fun_induction blankCommentsFrom p s generalizing before with
  | case1 => exact absurd h.symm (by simp)
  | case2 s ih =>
    rcases before with _ | ⟨d, _ | ⟨e, before⟩⟩
    · exact absurd (List.cons.inj h).1 (by decide)
    · exact absurd (List.cons.inj (List.cons.inj h).2).1 (by decide)
    · obtain ⟨hd, he, hrest⟩ : ' ' = d ∧ ' ' = e ∧ _ := by simpa using h
      rw [← hd, ← he, List.foldl_cons, List.foldl_cons]
      exact ih hrest
  | case3 c s hs ih =>
    rcases List.cons_eq_append_iff.mp h with ⟨rfl, hmark⟩ | ⟨before, rfl, hrest⟩
    · obtain ⟨rfl, hstar⟩ := List.cons.inj hmark
      cases s with
      | nil => cases hstar
      | cons d s =>
        obtain ⟨rfl, -⟩ := exists_passage_behind hstar.symm (by decide)
        exact absurd rfl (hs s rfl)
    · rw [List.foldl_cons, quoteNext_code]
      exact ih hrest
  | case4 q c s ih =>
    rcases List.cons_eq_append_iff.mp h with ⟨rfl, -⟩ | ⟨before, rfl, hrest⟩
    · exact Option.some_ne_none q
    · rw [List.foldl_cons, quoteNext_quoted]
      exact ih hrest
  | case5 b c s hc ih =>
    rcases List.cons_eq_append_iff.mp h with ⟨rfl, hmark⟩ | ⟨before, rfl, hrest⟩
    · exact absurd (List.cons.inj hmark).1 (by decide)
    · rw [List.foldl_cons]
      exact ih hrest
  | case6 b c s hc ih =>
    rcases List.cons_eq_append_iff.mp h with ⟨rfl, hmark⟩ | ⟨before, rfl, hrest⟩
    · have hblank := isBlank_blankedOut c
      rw [← (List.cons.inj hmark).1] at hblank
      exact absurd hblank (by decide)
    · rw [List.foldl_cons, quoteNext_comment b (c == '*')]
      exact ih hrest

/-- No comment opens in what is left. -/
theorem opensNoComment_blankComments (text : List Char) : OpensNoComment (blankComments text) := by
  intro before after h
  rw [quote_run]
  exact quote_ne_none_of_mark (p := .code) h

/-- Outside comments, a text in which none opens is left as it is. -/
theorem blankCommentsFrom_eq_self {p : Passage} (hp : p.Outside)
    (h : ∀ before after, s = before ++ '/' :: '*' :: after →
      before.foldl quoteNext p.quote ≠ none) : blankCommentsFrom p s = s := by
  fun_induction blankCommentsFrom p s with
  | case1 => rfl
  | case2 s => exact absurd rfl (h [] s rfl)
  | case3 c s hs ih =>
    refine congrArg (c :: ·) (ih (Passage.outside_behind_code c) fun before after hmark => ?_)
    rw [← quoteNext_code, ← List.foldl_cons]
    exact h (c :: before) after (congrArg (c :: ·) hmark)
  | case4 q c s ih =>
    refine congrArg (c :: ·) (ih (Passage.outside_behind_quoted q c) fun before after hmark => ?_)
    rw [← quoteNext_quoted, ← List.foldl_cons]
    exact h (c :: before) after (congrArg (c :: ·) hmark)
  | case5 b => exact absurd rfl (hp b)
  | case6 b => exact absurd rfl (hp b)

/-- A text that opens no comment is left as it is. -/
theorem blankComments_eq_self (h : OpensNoComment s) : blankComments s = s := by
  refine blankCommentsFrom_eq_self nofun fun before after hs => ?_
  have hquote := h before after hs
  rwa [quote_run] at hquote

end

/-- Every text consists of stretches in exactly one way, and what is left of it is what is left of
these: blanks and the line feeds for a comment, and all else as it is written. The line feeds are
as many as before, no comment opens in what is left, and to blank it out again changes nothing. -/
theorem blankComments_exact (text : List Char) :
    (∃ stretches, (∀ other, Consists text other ↔ other = stretches) ∧
      text = stretches.flatMap Stretch.text ∧
      blankComments text = stretches.flatMap Stretch.left) ∧
    lineFeeds (blankComments text) = lineFeeds text ∧
    OpensNoComment (blankComments text) ∧
    blankComments (blankComments text) = blankComments text := by
  have hnone := opensNoComment_blankComments text
  refine ⟨?_, lineFeeds_blankCommentsFrom .code text, hnone, blankComments_eq_self hnone⟩
  obtain ⟨stretches, hstretches⟩ := exists_consists_iff text
  have hconsists := (hstretches stretches).mpr rfl
  exact ⟨stretches, hstretches, (text_of_consists hconsists).symm,
    blankComments_of_consists hconsists⟩

/-- The slash behind the opening does not end a comment, and a quote inside it opens nothing. -/
example : blankComments "a/*/'*/\"/*\"/*b\n*".toList = "a      \"/*\"   \n ".toList := by
  decide

end RouteSheet.Text
