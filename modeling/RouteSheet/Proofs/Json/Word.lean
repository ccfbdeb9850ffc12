import RouteSheet.Json.Reader
import RouteSheet.Proofs.Text.Balanced
import RouteSheet.Proofs.Text.Phrase

/-!
# One word of a JSON text after another

A JSON text is taken apart word by word. A word that is read stays the same when
more text follows that cannot make it longer, and a word is balanced text unless a
string in it escapes a double quote.
-/

namespace RouteSheet.Json

open Text Nesting

/-- The mark that a character is. -/
def mark? (c : Char) : Option Token :=
  if c = '[' then some .openArray
  else if c = ']' then some .closeArray
  else if c = '\x7b' then some .openObject
  else if c = '\x7d' then some .closeObject
  else if c = ',' then some .comma
  else if c = ':' then some .colon
  else none

/-- What a word may be, as its first character tells. -/
inductive WordKind where
  | space
  | mark (token : Token)
  | string
  | number
  | literal

/-- The kind of the word that a character begins. -/
def kindOf (c : Char) : WordKind :=
  if isSpace c then .space
  else
    match mark? c with
    | some token => .mark token
    | none =>
      if c = '"' then .string else if isDigit c || c == '-' then .number else .literal

/-- The word at the beginning of a text, or none if the text begins with a space, and the text
behind it. -/
def nextWord? (fuel : Nat) (c : Char) (s : List Char) : Option (List Token × List Char) :=
  match kindOf c with
  | .space => some ([], s)
  | .mark token => some ([token], s)
  | .string =>
    (stringContents? fuel [] s).map fun word => ([.string (String.ofList word.1)], word.2)
  | .number =>
    (number? (takeRun isNumberChar (c :: s)).1).map fun value =>
      ([.scalar value], (takeRun isNumberChar (c :: s)).2)
  | .literal =>
    (literal? (takeRun isLetter (c :: s)).1).map fun value =>
      ([.scalar value], (takeRun isLetter (c :: s)).2)

variable {n m : Nat} {c : Char} {s t rest : List Char} {done tokens : List Token}

/-- Without steps no word is read. -/
theorem tokensOnto?_zero : tokensOnto? 0 done s = none := by
  cases s <;> rfl

/-- The first word is told by its first character; the cases are those of the reader. -/
private theorem tokensOnto?_succ : tokensOnto? (n + 1) done (c :: s) =
    if isSpace c then tokensOnto? n done s
    else if c = '[' then tokensOnto? n (.openArray :: done) s
    else if c = ']' then tokensOnto? n (.closeArray :: done) s
    else if c = '\x7b' then tokensOnto? n (.openObject :: done) s
    else if c = '\x7d' then tokensOnto? n (.closeObject :: done) s
    else if c = ',' then tokensOnto? n (.comma :: done) s
    else if c = ':' then tokensOnto? n (.colon :: done) s
    else if c = '"' then
      match stringContents? n [] s with
      | some (value, rest) => tokensOnto? n (.string (String.ofList value) :: done) rest
      | none => none
    else if isDigit c || c == '-' then
      match number? (takeRun isNumberChar (c :: s)).1 with
      | some value => tokensOnto? n (.scalar value :: done) (takeRun isNumberChar (c :: s)).2
      | none => none
    else
      match literal? (takeRun isLetter (c :: s)).1 with
      | some value => tokensOnto? n (.scalar value :: done) (takeRun isLetter (c :: s)).2
      | none => none := by
  exact rfl

/-- The words of a text are its first word and those behind it. -/
theorem tokensOnto?_cons : tokensOnto? (n + 1) done (c :: s) =
    (nextWord? n c s).bind fun word => tokensOnto? n (word.1 ++ done) word.2 := by
  rw [tokensOnto?_succ, nextWord?, kindOf, mark?]
  by_cases hspace : isSpace c = true
  · simp only [hspace, if_true, Option.bind_some, List.nil_append]
  simp only [hspace, Bool.false_eq_true, if_false]
  repeat
    split
    · rfl
  split
  · cases stringContents? n [] s <;> rfl
  · split
    · cases number? (takeRun isNumberChar (c :: s)).1 <;> rfl
    · cases literal? (takeRun isLetter (c :: s)).1 <;> rfl

/-- A string in the text escapes a double quote. -/
def escapesQuote : List Char → Bool
  | '\\' :: c :: s => c == '"' || escapesQuote s
  | _ :: s => escapesQuote s
  | [] => false

/-- A part of a string's contents: without double quote, and no backslash is left open. -/
structure Within (s : List Char) : Prop where
  noQuote : '"' ∉ s
  closed (t : List Char) : escapesQuote (s ++ t) = escapesQuote t

/-- A character that is no backslash escapes nothing. -/
theorem escapesQuote_cons (h : c ≠ '\\') : escapesQuote (c :: s) = escapesQuote s := by
  rw [escapesQuote]
  intro _ _ hc
  exact absurd hc h

namespace Within

/-- The empty text is a part of a string. -/
theorem nil : Within [] := ⟨nofun, fun _ => rfl⟩

/-- Two parts of a string are one part together. -/
theorem append (hs : Within s) (ht : Within t) : Within (s ++ t) := by
  refine ⟨?_, fun u => ?_⟩
  · rw [List.mem_append, not_or]
    exact ⟨hs.noQuote, ht.noQuote⟩
  · rw [List.append_assoc, hs.closed, ht.closed]

/-- A character that is neither double quote nor backslash is a part of a string. -/
theorem plain (hquote : c ≠ '"') (hback : c ≠ '\\') : Within [c] :=
  ⟨fun h => hquote (List.mem_singleton.mp h).symm, fun _ => escapesQuote_cons hback⟩

/-- An escape of anything but a double quote is a part of a string. -/
theorem escape (hquote : c ≠ '"') : Within ['\\', c] := by
  refine ⟨?_, fun t => ?_⟩
  · simp only [List.mem_cons, List.not_mem_nil, or_false, not_or]
    exact ⟨by decide, Ne.symm hquote⟩
  · have hne : (c == '"') = false := beq_eq_false_iff_ne.mpr hquote
    rw [List.cons_append, List.singleton_append, escapesQuote, hne, Bool.false_or]

end Within

/-- A code unit is four characters, whatever follows them. -/
private theorem exists_codeUnit? {unit : Nat} (h : codeUnit? s = some (unit, rest)) :
    ∃ raw, s = raw ++ rest ∧ Within raw ∧ ∀ t, codeUnit? (raw ++ t) = some (unit, t) := by
  have hhex : ∀ {c : Char} {x : Nat}, hexValue? c = some x → Within [c] := by
    rintro c x hc
    refine .plain ?_ ?_ <;> rintro rfl <;> exact absurd hc nofun
  unfold codeUnit? at h
  split at h
  · next a b c d _ =>
    simp only [Option.bind_eq_bind, Option.bind_eq_some_iff, Option.some.injEq,
      Prod.mk.injEq] at h
    obtain ⟨w, hw, x, hx, y, hy, z, hz, rfl, rfl⟩ := h
    refine ⟨[a, b, c, d], rfl, ((hhex hw).append ((hhex hx).append ((hhex hy).append (hhex hz)))),
      fun t => ?_⟩
    simp only [codeUnit?, List.cons_append, List.nil_append, hw, hx, hy, hz,
      Option.bind_eq_bind, Option.bind_some]
  · exact absurd h nofun

/-- An escape of code units is one or two of them, whatever follows. -/
private theorem exists_unitEscape? (h : unitEscape? s = some (c, rest)) :
    ∃ raw, s = raw ++ rest ∧ Within raw ∧ ∀ t, unitEscape? (raw ++ t) = some (c, t) := by
  unfold unitEscape? at h
  split at h
  · exact absurd h nofun
  · next unit behind hunit =>
    obtain ⟨first, rfl, hfirst, happ⟩ := exists_codeUnit? hunit
    split at h
    · next hsingle =>
      obtain ⟨rfl, rfl⟩ := Prod.mk.inj (Option.some.inj h)
      refine ⟨first, rfl, hfirst, fun t => ?_⟩
      simp only [unitEscape?, happ, hsingle, if_true]
    · next hpair =>
      split at h
      · exact absurd h nofun
      · next hhigh =>
        split at h
        · next after =>
          split at h
          · next second _ hsecond =>
            obtain ⟨last, rfl, hlast, happ'⟩ := exists_codeUnit? hsecond
            split at h
            · next hlow =>
              obtain ⟨rfl, rfl⟩ := Prod.mk.inj (Option.some.inj h)
              refine ⟨first ++ ('\\' :: 'u' :: last), by simp, ?_, fun t => ?_⟩
              · exact hfirst.append ((Within.escape (by decide)).append hlast)
              · rw [unitEscape?, List.append_assoc, happ]
                simp only [hpair, hhigh, Bool.false_eq_true, if_false, List.cons_append, happ',
                  hlow, if_true]
            · exact absurd h nofun
          · exact absurd h nofun
        · exact absurd h nofun

variable {contents : List Char}

/-- The contents of a string end at its closing quote, whatever follows that. -/
theorem stringContents?_append (h : stringContents? n t s = some (contents, rest)) (hm : n ≤ m)
    (u : List Char) : stringContents? m t (s ++ u) = some (contents, rest ++ u) := by
  fun_induction stringContents? n t s generalizing m with
  | case1 => exact absurd h nofun
  | case2 => exact absurd h nofun
  | case3 n done s =>
    obtain ⟨m, rfl⟩ : ∃ k, m = k + 1 := ⟨m - 1, by omega⟩
    obtain ⟨rfl, rfl⟩ := Prod.mk.inj (Option.some.inj h)
    rw [List.cons_append, stringContents?]
  | case4 n done s c behind hc ih =>
    obtain ⟨m, rfl⟩ : ∃ k, m = k + 1 := ⟨m - 1, by omega⟩
    obtain ⟨raw, rfl, -, happ⟩ := exists_unitEscape? hc
    simp only [List.cons_append, List.append_assoc, stringContents?, happ]
    exact ih h (by omega)
  | case5 => exact absurd h nofun
  | case6 n done letter s hletter c hc ih =>
    obtain ⟨m, rfl⟩ : ∃ k, m = k + 1 := ⟨m - 1, by omega⟩
    rw [List.cons_append, List.cons_append, stringContents?, hc]
    · exact ih h (by omega)
    · exact hletter
  | case7 => exact absurd h nofun
  | case8 => exact absurd h nofun
  | case9 n done c s hquote hunit hescape hplain ih =>
    obtain ⟨m, rfl⟩ : ∃ k, m = k + 1 := ⟨m - 1, by omega⟩
    have hback : c ≠ '\\' := by
      rintro rfl
      exact hplain rfl
    rw [List.cons_append, stringContents?, if_neg hplain]
    · exact ih h (by omega)
    · exact hquote
    · exact fun _ hc => absurd hc hback
    · exact fun _ _ hc => absurd hc hback

/-- A string without an escaped double quote has none before the closing one. -/
theorem exists_stringContents? (h : stringContents? n t s = some (contents, rest))
    (hs : escapesQuote s = false) : ∃ raw, s = raw ++ '"' :: rest ∧ Within raw := by
  fun_induction stringContents? n t s with
  | case1 => exact absurd h nofun
  | case2 => exact absurd h nofun
  | case3 n done s =>
    obtain ⟨-, rfl⟩ := Prod.mk.inj (Option.some.inj h)
    exact ⟨[], rfl, .nil⟩
  | case4 n done s c behind hc ih =>
    obtain ⟨unit, rfl, hunit, -⟩ := exists_unitEscape? hc
    have hword : Within ('\\' :: 'u' :: unit) := (Within.escape (by decide)).append hunit
    have hclosed := hword.closed behind
    obtain ⟨raw, rfl, hraw⟩ := ih h (hclosed.symm.trans hs)
    exact ⟨_, (List.append_assoc ('\\' :: 'u' :: unit) raw _).symm, hword.append hraw⟩
  | case5 => exact absurd h nofun
  | case6 n done letter s _ c _ ih =>
    rw [escapesQuote, Bool.or_eq_false_iff, beq_eq_false_iff_ne] at hs
    obtain ⟨raw, rfl, hraw⟩ := ih h hs.2
    exact ⟨_, rfl, (Within.escape hs.1).append hraw⟩
  | case7 => exact absurd h nofun
  | case8 => exact absurd h nofun
  | case9 n done c s hquote _ _ hplain ih =>
    have hback : c ≠ '\\' := by
      rintro rfl
      exact hplain rfl
    rw [escapesQuote_cons hback] at hs
    obtain ⟨raw, rfl, hraw⟩ := ih h hs
    exact ⟨_, rfl, (Within.plain hquote hback).append hraw⟩

/-- A text that does not make the word before it longer. -/
def Apart (s : List Char) : Prop :=
  ∀ c, s.head? = some c → isNumberChar c = false ∧ isLetter c = false

/-- A word stays the same when a text apart from it follows. -/
theorem nextWord?_append (h : nextWord? n c s = some (tokens, rest)) (hm : n ≤ m) (hu : Apart t) :
    nextWord? m c (s ++ t) = some (tokens, rest ++ t) := by
  rw [nextWord?] at h ⊢
  cases hkind : kindOf c with
  | space | mark =>
    rw [hkind] at h
    obtain ⟨rfl, rfl⟩ := Prod.mk.inj (Option.some.inj h)
    rfl
  | string =>
    rw [hkind] at h
    obtain ⟨⟨contents, behind⟩, hstring, hword⟩ := Option.map_eq_some_iff.mp h
    obtain ⟨rfl, rfl⟩ := Prod.mk.inj hword
    simp only [stringContents?_append hstring hm, Option.map_some]
  | number =>
    rw [hkind] at h
    obtain ⟨value, hnumber, hword⟩ := Option.map_eq_some_iff.mp h
    obtain ⟨rfl, rfl⟩ := Prod.mk.inj hword
    simp only [← List.cons_append, takeRun_append_of_head _ fun x hx => (hu x hx).1, hnumber,
      Option.map_some]
  | literal =>
    rw [hkind] at h
    obtain ⟨value, hliteral, hword⟩ := Option.map_eq_some_iff.mp h
    obtain ⟨rfl, rfl⟩ := Prod.mk.inj hword
    simp only [← List.cons_append, takeRun_append_of_head _ fun x hx => (hu x hx).2, hliteral,
      Option.map_some]

/-- The words of a text are read first, and then those of the text behind it. -/
theorem exists_tokensOnto?_append (h : tokensOnto? n done s = some tokens) (hu : Apart t)
    (m : Nat) : ∃ k, tokensOnto? (n + m) done (s ++ t) = tokensOnto? k tokens.reverse t := by
  induction n generalizing done s with
  | zero =>
    rw [tokensOnto?_zero] at h
    cases h
  | succ n ih =>
    cases s with
    | nil =>
      refine ⟨n + 1 + m, ?_⟩
      rw [List.nil_append, ← Option.some.inj h, List.reverse_reverse]
    | cons c s =>
      rw [tokensOnto?_cons, Option.bind_eq_some_iff] at h
      obtain ⟨⟨word, rest⟩, hword, hrest⟩ := h
      obtain ⟨k, hk⟩ := ih hrest
      refine ⟨k, ?_⟩
      rw [List.cons_append, Nat.add_right_comm, tokensOnto?_cons,
        nextWord?_append hword (Nat.le_add_right n m) hu, Option.bind_some, hk]

/-- The characters that a word of JSON does not hold outside a string. -/
private def foreign : List Char := ['"', '\'', '(', ')', ';', '\\']

private theorem escapesQuote_append (h : '\\' ∉ s) (t : List Char) :
    escapesQuote (s ++ t) = escapesQuote t := by
  induction s with
  | nil => rfl
  | cons c s ih =>
    rw [List.mem_cons, not_or] at h
    rw [List.cons_append, escapesQuote_cons (Ne.symm h.1), ih h.2]

/-- A run of a class without foreign characters is balanced. -/
private theorem balanced_run {p : Char → Bool} (hp : foreign.all (!p ·) = true)
    (hs : s.all p = true) :
    Balanced (· == ';') s ∧ ∀ t, escapesQuote (s ++ t) = escapesQuote t := by
  have hne : ∀ c ∈ s, ∀ d ∈ foreign, c ≠ d := by
    rintro c hc d hd rfl
    have hnot := List.all_eq_true.mp hp c hd
    rw [List.all_eq_true.mp hs c hc] at hnot
    exact Bool.false_ne_true hnot
  have hback : '\\' ∉ s := fun hc => hne _ hc _ (by decide) rfl
  refine ⟨Balanced.of_plain fun c hc => ?_, escapesQuote_append hback⟩
  simp only [isPlain, isQuote, bne, beq_eq_false_iff_ne.mpr (hne c hc '"' (by decide)),
    beq_eq_false_iff_ne.mpr (hne c hc '\'' (by decide)),
    beq_eq_false_iff_ne.mpr (hne c hc '(' (by decide)),
    beq_eq_false_iff_ne.mpr (hne c hc ')' (by decide)),
    beq_eq_false_iff_ne.mpr (hne c hc ';' (by decide)),
    Bool.or_self, Bool.not_false, Bool.and_self, and_self]

/-- What the kind of a word says about its first character. -/
private theorem kindOf_spec (c : Char) :
    match kindOf c with
    | .space => isSpace c = true
    | .mark token => mark? c = some token
    | .string => c = '"'
    | .number | .literal => True := by
  unfold kindOf
  by_cases hspace : isSpace c = true
  · rw [if_pos hspace]
    exact hspace
  · rw [if_neg hspace]
    cases hmark : mark? c with
    | some token => rfl
    | none =>
      by_cases hquote : c = '"'
      · simp only [if_pos hquote]
        exact hquote
      · by_cases hdigit : (isDigit c || c == '-') = true
        · simp only [if_neg hquote, if_pos hdigit]
        · simp only [if_neg hquote, if_neg hdigit]

/-- A word is balanced if it escapes no double quote, and so is what follows free of one. -/
theorem exists_nextWord? (h : nextWord? n c s = some (tokens, rest))
    (hs : escapesQuote (c :: s) = false) :
    ∃ raw, c :: s = raw ++ rest ∧ Balanced (· == ';') raw ∧ escapesQuote rest = false := by
  have hrun : ∀ p : Char → Bool, foreign.all (!p ·) = true → rest = (c :: s).dropWhile p →
      ∃ raw, c :: s = raw ++ rest ∧ Balanced (· == ';') raw ∧ escapesQuote rest = false := by
    rintro p hp rfl
    obtain ⟨hbalanced, hescape⟩ := balanced_run hp (List.all_takeWhile (l := c :: s))
    refine ⟨_, List.takeWhile_append_dropWhile.symm, hbalanced, ?_⟩
    rw [← hescape, List.takeWhile_append_dropWhile, hs]
  have hone : ∀ p : Char → Bool, foreign.all (!p ·) = true → p c = true → rest = s →
      ∃ raw, c :: s = raw ++ rest ∧ Balanced (· == ';') raw ∧ escapesQuote rest = false := by
    rintro p hp hc rfl
    obtain ⟨hbalanced, hescape⟩ := balanced_run (s := [c]) hp (by rw [List.all_cons, hc]; rfl)
    exact ⟨[c], rfl, hbalanced, (hescape rest).symm.trans hs⟩
  have hspec := kindOf_spec c
  rw [nextWord?] at h
  cases hkind : kindOf c with
  | space =>
    rw [hkind] at h hspec
    exact hone isSpace rfl hspec (Prod.mk.inj (Option.some.inj h)).2.symm
  | mark token =>
    rw [hkind] at h hspec
    exact hone (fun c => (mark? c).isSome) rfl (Option.isSome_of_eq_some hspec)
      (Prod.mk.inj (Option.some.inj h)).2.symm
  | string =>
    rw [hkind] at h hspec
    obtain ⟨⟨contents, behind⟩, hstring, hword⟩ := Option.map_eq_some_iff.mp h
    obtain ⟨-, rfl⟩ := Prod.mk.inj hword
    have hquote : c = '"' := hspec
    rw [hquote, escapesQuote_cons (by decide)] at hs
    obtain ⟨raw, rfl, hraw⟩ := exists_stringContents? hstring hs
    refine ⟨'"' :: (raw ++ ['"']), by simp [hquote], .quoted rfl hraw.noQuote, ?_⟩
    rw [← hs, hraw.closed, escapesQuote_cons (by decide)]
  | number =>
    rw [hkind] at h
    obtain ⟨_, -, hword⟩ := Option.map_eq_some_iff.mp h
    exact hrun isNumberChar rfl (Prod.mk.inj hword).2.symm
  | literal =>
    rw [hkind] at h
    obtain ⟨_, -, hword⟩ := Option.map_eq_some_iff.mp h
    exact hrun isLetter rfl (Prod.mk.inj hword).2.symm

/-- A text of JSON words is balanced if it escapes no double quote. -/
theorem balanced_of_tokensOnto? (h : tokensOnto? n done s = some tokens)
    (hs : escapesQuote s = false) : Balanced (· == ';') s := by
  induction n generalizing done s with
  | zero =>
    rw [tokensOnto?_zero] at h
    cases h
  | succ n ih =>
    cases s with
    | nil => exact .nil
    | cons c s =>
      rw [tokensOnto?_cons, Option.bind_eq_some_iff] at h
      obtain ⟨⟨word, rest⟩, hword, hrest⟩ := h
      obtain ⟨raw, heq, hraw, hescape⟩ := exists_nextWord? hword hs
      rw [heq]
      exact hraw.append (ih hrest hescape)

/-- Words read stay read. -/
theorem exists_tokensOnto? (h : tokensOnto? n done s = some tokens) :
    ∃ more, tokens = done.reverse ++ more := by
  induction n generalizing done s with
  | zero =>
    rw [tokensOnto?_zero] at h
    cases h
  | succ n ih =>
    cases s with
    | nil => exact ⟨[], by rw [List.append_nil]; exact (Option.some.inj h).symm⟩
    | cons c s =>
      rw [tokensOnto?_cons, Option.bind_eq_some_iff] at h
      obtain ⟨word, -, hword⟩ := h
      obtain ⟨more, rfl⟩ := ih hword
      exact ⟨word.1.reverse ++ more, by rw [List.reverse_append, List.append_assoc]⟩

/-- A blank stands in neither numbers nor literals. -/
theorem notWord_of_isBlank (hc : isBlank c = true) :
    isNumberChar c = false ∧ isLetter c = false := by
  have hne : ∀ d : Char, isBlank d = false → (c == d) = false := by
    rintro d hd
    refine beq_eq_false_iff_ne.mpr ?_
    rintro rfl
    exact Bool.false_ne_true (hd.symm.trans hc)
  constructor
  · rw [isNumberChar, isDigit, not_isBlank_between (by decide) (by decide) hc,
      hne '-' rfl, hne '+' rfl, hne '.' rfl, hne 'e' rfl,
      hne 'E' rfl]
    rfl
  · exact isLetter_of_isBlank hc

/-- No word begins with a blank. -/
private theorem nextWord?_of_isBlank (hc : isBlank c = true)
    (h : nextWord? n c s = some (tokens, rest)) : tokens = [] ∧ rest = s := by
  have hne : ∀ d : Char, isBlank d = false → c ≠ d := by
    rintro d hd rfl
    exact Bool.false_ne_true (hd.symm.trans hc)
  obtain ⟨hnumber, hletter⟩ := notWord_of_isBlank hc
  have hdigit : (isDigit c || c == '-') = false := by
    simp only [isNumberChar, Bool.or_eq_false_iff] at hnumber
    rw [hnumber.1.1.1.1.1, hnumber.1.1.1.1.2, Bool.or_self]
  have hmark : mark? c = none := by
    rw [mark?, if_neg (hne '[' rfl), if_neg (hne ']' rfl),
      if_neg (hne '\x7b' rfl), if_neg (hne '\x7d' rfl),
      if_neg (hne ',' rfl), if_neg (hne ':' rfl)]
  by_cases hspace : isSpace c = true
  · have hkind : kindOf c = .space := if_pos hspace
    rw [nextWord?, hkind] at h
    obtain ⟨rfl, rfl⟩ := Prod.mk.inj (Option.some.inj h)
    exact ⟨rfl, rfl⟩
  · have hkind : kindOf c = .literal := by
      simp only [kindOf, if_neg hspace, hmark, if_neg (hne '"' rfl), hdigit,
        Bool.false_eq_true, if_false]
    have hliteral : literal? [] = none := rfl
    simp only [nextWord?, hkind, takeRun, List.takeWhile_cons, hletter, Bool.false_eq_true,
      if_false, hliteral, Option.map_none] at h
    cases h

/-- Blanks between words are no words. -/
theorem exists_tokensOnto?_blanks (hs : isBlankText s = true)
    (h : tokensOnto? n done (s ++ t) = some tokens) :
    ∃ k, tokensOnto? k done t = some tokens := by
  induction s generalizing n with
  | nil => exact ⟨n, h⟩
  | cons c s ih =>
    rw [isBlankText, List.all_cons, Bool.and_eq_true] at hs
    cases n with
    | zero =>
      rw [tokensOnto?_zero] at h
      cases h
    | succ n =>
      rw [List.cons_append, tokensOnto?_cons, Option.bind_eq_some_iff] at h
      obtain ⟨⟨word, rest⟩, hword, hrest⟩ := h
      obtain ⟨rfl, rfl⟩ := nextWord?_of_isBlank hs.1 hword
      exact ih hs.2 hrest

end RouteSheet.Json
