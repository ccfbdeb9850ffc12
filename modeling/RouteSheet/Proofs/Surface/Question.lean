import RouteSheet.Proofs.Surface.Token

/-!
# Questions of the surface syntax

A question names a variable and may compare it with an operand. Connectives are
looked for in the text of a condition as it stands, so a quoted operand must be
without them; and because they begin with a space and a letter, none begins where
an author may put blanks. A written question is read as the condition it asks for.
-/

namespace RouteSheet.Surface

open Text Nesting

/-- A word between two conditions. -/
inductive Connective where
  | or
  | and
  deriving Repr, DecidableEq

/-- The word with the spaces around it. -/
def Connective.text : Connective → List Char
  | .or => " or ".toList
  | .and => " and ".toList

/-- The word without the spaces. -/
def Connective.word : Connective → List Char
  | .or => "or".toList
  | .and => "and".toList

/-- A quoted text of one line without a connective. -/
structure QuotedLine extends Quoted where
  oneLine : '\n' ∉ contents
  unconnected (k : Connective) : containsPhrase k.text contents = false

/-- What a variable is compared with. -/
inductive Operand where
  | numeral (n : Numeral)
  | quoted (q : QuotedLine)

/-- A question about one variable. -/
inductive Question where
  | truthy (name : Name)
  | compare (name : Name) (before : Blanks) (relation : Relation) (after : Blanks)
      (operand : Operand)

namespace Operand

/-- The text of an operand. -/
def text : Operand → List Char
  | .numeral n => n.text
  | .quoted q => q.text

/-- The value of an operand. -/
def value : Operand → Value
  | .numeral n => .number n.value
  | .quoted q => .string (String.ofList q.contents)

end Operand

namespace Question

/-- The text of a question. -/
def text : Question → List Char
  | .truthy name => '-' :: '-' :: name.chars
  | .compare name before relation after operand =>
    '-' :: '-' :: (name.chars ++ (before.1 ++
      (relation.symbol.toList ++ (after.1 ++ operand.text))))

/-- The text of a comparison up to its operand. -/
def opening (name : Name) (before : Blanks) (relation : Relation) (after : Blanks) : List Char :=
  '-' :: '-' :: (name.chars ++ (before.1 ++ (relation.symbol.toList ++ after.1)))

/-- The condition that a question writes. -/
def condition : Question → Condition
  | .truthy name => .truthy (String.ofList name.chars)
  | .compare name _ relation _ operand =>
    .compare (String.ofList name.chars) relation operand.value

end Question

/-- The letter that a connective begins with. -/
def Connective.letter : Connective → Char
  | .or => 'o'
  | .and => 'a'

namespace Connective

variable (k : Connective) {s rest : List Char}

private theorem text_eq : ∃ more, k.text = ' ' :: k.letter :: more := by
  cases k with
  | or => exact ⟨['r', ' '], rfl⟩
  | and => exact ⟨['n', 'd', ' '], rfl⟩

/-- A connective takes at least one character. -/
theorem text_ne_nil : k.text ≠ [] := by
  obtain ⟨more, hk⟩ := k.text_eq
  rw [hk]
  exact List.cons_ne_nil _ _

/-- No connective begins in a text without blanks. -/
theorem freeOf_of_tame (hs : s.all isTame = true) : FreeOf k.text s rest := by
  obtain ⟨more, hk⟩ := k.text_eq
  rw [hk]
  refine freeOf_of_not_mem ?_ rest
  intro hmem
  exact absurd (List.all_eq_true.mp hs _ hmem) (by decide)

/-- In blanks a connective begins only if its letter follows them. -/
theorem freeOf_blanks (b : Blanks) (hrest : rest.head? ≠ some k.letter) :
    FreeOf k.text b.1 rest := by
  obtain ⟨more, hk⟩ := k.text_eq
  rw [hk]
  refine freeOf_of_blank ?_ b.2 hrest
  cases k <;> decide

variable (q : Quoted)

/-- No quote stands in a connective. -/
theorem quote_not_mem_text : q.quote ∉ k.text := by
  rcases q.quote_eq with h | h <;> rw [h] <;> cases k <;> decide

/-- No connective begins at a quote. -/
theorem freeOf_quote (rest : List Char) : FreeOf k.text [q.quote] rest := by
  obtain ⟨more, hk⟩ := k.text_eq
  have hquote := k.quote_not_mem_text q
  refine ⟨?_, trivial⟩
  intro hp
  rw [hk] at hp hquote
  exact hquote ((List.cons_prefix_cons.mp hp).1 ▸ List.mem_cons_self ..)

/-- Where no connective is found in the contents, none begins in them before the quote. -/
theorem freeOf_contents (h : containsPhrase k.text q.contents = false) (rest : List Char) :
    FreeOf k.text (q.contents ++ [q.quote]) rest := by
  have hcontents : FreeOf k.text q.contents [] := by
    refine (cutAtPhrase?_eq_none k.text_ne_nil).mp (Option.isNone_iff_eq_none.mp ?_)
    rw [← Option.not_isSome]
    exact Bool.not_eq_true' .. |>.mpr h
  exact freeOf_append.mpr
    ⟨hcontents.cons_rest (k.quote_not_mem_text q) _, k.freeOf_quote q rest⟩

end Connective

/-- Blanks behind the space that ends a word. -/
def Blanks.spaced (b : Blanks) : Blanks :=
  ⟨' ' :: b.1, by rw [isBlankText, List.all_cons]; exact b.2⟩

namespace Operand

variable (o : Operand)

/-- An operand has no blanks at its ends. -/
theorem isTrimmed_text : isTrimmed o.text = true := by
  cases o with
  | numeral n => exact isTrimmed_of_tame n.isTame_text n.text_ne_nil
  | quoted q => exact q.toQuoted.isTrimmed_text

/-- An operand is balanced. -/
theorem balanced : Balanced isSeparator o.text := by
  cases o with
  | numeral n => exact balanced_of_tame n.isTame_text
  | quoted q => exact q.toQuoted.balanced

/-- An operand is one line. -/
theorem oneLine : '\n' ∉ o.text := by
  cases o with
  | numeral n =>
    intro hmem
    exact absurd (List.all_eq_true.mp n.isTame_text _ hmem) (by decide)
  | quoted q =>
    have hquote : '\n' ≠ q.quote := by
      intro h
      exact absurd (h ▸ q.isQuote) (by decide)
    simp only [text, Quoted.text, List.mem_cons, List.mem_append, List.not_mem_nil, or_false,
      hquote, q.oneLine, not_false_eq_true]

/-- An operand begins neither like a connective nor like the end of a relation. -/
private theorem exists_text : ∃ c s, o.text = c :: s ∧ isLetter c = false ∧ c ≠ '=' := by
  cases o with
  | numeral n =>
    obtain ⟨c, s, hs, hname, hc⟩ := n.exists_text
    refine ⟨c, s, hs, hc, ?_⟩
    rintro rfl
    exact absurd hname (by decide)
  | quoted q =>
    refine ⟨q.quote, _, rfl, ?_⟩
    rcases q.quote_eq with h | h <;> rw [h] <;> decide

/-- No connective begins in an operand. -/
private theorem freeOf_text (k : Connective) (rest : List Char) : FreeOf k.text o.text rest := by
  cases o with
  | numeral n => exact k.freeOf_of_tame n.isTame_text
  | quoted q =>
    have htext : q.text = [q.quote] ++ (q.contents ++ [q.quote]) := rfl
    rw [text, htext]
    exact freeOf_append.mpr
      ⟨k.freeOf_quote q.toQuoted _, k.freeOf_contents q.toQuoted (q.unconnected k) rest⟩

/-- An operand is read as its value. -/
private theorem comparand_text : Condition.comparand (trim o.text) = o.value := by
  rw [trim_of_isTrimmed o.isTrimmed_text]
  cases o with
  | numeral n => rw [text, Condition.comparand, n.ofNumeral?_text, value]
  | quoted q =>
    rw [text, Condition.comparand, q.ofNumeral?_text, q.toQuoted.stripQuotes_text, value]

end Operand

/-- The symbols of relations are tame. -/
theorem isTame_symbol (r : Relation) : r.symbol.toList.all isTame = true := by
  cases r <;> decide

/-- The symbol of a relation begins neither a name nor a connective. -/
private theorem exists_symbol (r : Relation) :
    ∃ c s, r.symbol.toList = c :: s ∧ Condition.isNameChar c = false ∧ isLetter c = false := by
  cases r <;> exact ⟨_, _, rfl, by decide, by decide⟩

/-- The first letter of a connective is a letter. -/
theorem Connective.isLetter_letter (k : Connective) : isLetter k.letter = true := by
  cases k <;> decide

/-- No connective begins in a comparison before its operand. -/
theorem Connective.freeOf_opening (k : Connective) (name : Name) (before : Blanks)
    (relation : Relation) (after : Blanks) {rest : List Char}
    (hrest : rest.head? ≠ some k.letter) :
    FreeOf k.text (Question.opening name before relation after) rest := by
  have hmark : ∀ rest, FreeOf k.text ['-', '-'] rest := fun rest => k.freeOf_of_tame rfl
  have hname : ∀ t, FreeOf k.text name.chars t := fun t => k.freeOf_of_tame name.isTame_chars
  have hsymbol : ∀ t, FreeOf k.text relation.symbol.toList t :=
    fun t => k.freeOf_of_tame (isTame_symbol relation)
  have hbefore : ∀ t, FreeOf k.text before.1 (relation.symbol.toList ++ t) := by
    intro t
    refine k.freeOf_blanks before ?_
    obtain ⟨c, s, hs, -, hc⟩ := exists_symbol relation
    rw [hs, List.cons_append, List.head?_cons]
    rintro ⟨rfl⟩
    exact Bool.false_ne_true (hc.symm.trans k.isLetter_letter)
  refine freeOf_append (s := ['-', '-']).mpr ⟨hmark _, freeOf_append.mpr ⟨hname _, ?_⟩⟩
  refine freeOf_append.mpr ⟨?_, freeOf_append.mpr ⟨hsymbol _, k.freeOf_blanks after hrest⟩⟩
  rw [List.append_assoc]
  exact hbefore _

/-- The first relation whose symbol a text begins with, if the symbol goes no further. -/
private theorem findSome?_symbol {β : Type} (r : Relation) {c : Char} (hc : c ≠ '=') (s : List Char)
    (f : Relation → List Char → Option β) {b : β} (hb : f r (c :: s) = some b) :
    (Relation.all.findSome? fun relation =>
      match stripStart? relation.symbol.toList (r.symbol.toList ++ c :: s) with
      | none => none
      | some after => f relation after) = some b := by
  have hne : '=' ≠ c := Ne.symm hc
  cases r <;>
    simp [Relation.all, Relation.symbol, stripStart?, hne, hb]

namespace Question

variable (q : Question)

/-- A question has no blanks at its ends. -/
theorem isTrimmed_text : isTrimmed q.text = true := by
  have hmark : isTrimmed ['-'] = true := by decide
  cases q with
  | truthy name =>
    exact isTrimmed_append hmark (isTrimmed_of_tame name.isTame_chars name.ne_nil) ['-']
  | compare name before relation after operand =>
    have h := isTrimmed_append hmark operand.isTrimmed_text
      ('-' :: (name.chars ++ (before.1 ++ (relation.symbol.toList ++ after.1))))
    rw [text]
    simpa only [List.append_assoc, List.cons_append, List.nil_append] using h

/-- A question is balanced. -/
theorem balanced : Balanced isSeparator q.text := by
  have hmark : Balanced isSeparator ['-', '-'] := balanced_of_tame rfl
  cases q with
  | truthy name => exact hmark.append name.balanced
  | compare name before relation after operand =>
    have hsymbol := balanced_of_tame (isTame_symbol relation)
    exact hmark.append (name.balanced.append ((balanced_of_blank before.2).append
      (hsymbol.append ((balanced_of_blank after.2).append operand.balanced))))

/-- No connective begins in a question. -/
theorem freeOf_text (k : Connective) (rest : List Char) : FreeOf k.text q.text rest := by
  cases q with
  | truthy name =>
    have hmark : FreeOf k.text ['-', '-'] (name.chars ++ rest) := k.freeOf_of_tame rfl
    exact freeOf_append.mpr ⟨hmark, k.freeOf_of_tame name.isTame_chars⟩
  | compare name before relation after operand =>
    have hoperand : (operand.text ++ rest).head? ≠ some k.letter := by
      obtain ⟨c, s, hs, hc, -⟩ := operand.exists_text
      rw [hs, List.cons_append, List.head?_cons]
      rintro ⟨rfl⟩
      exact Bool.false_ne_true (hc.symm.trans k.isLetter_letter)
    have hopening := k.freeOf_opening name before relation after hoperand
    have htext : (compare name before relation after operand).text =
        opening name before relation after ++ operand.text := by
      simp only [text, opening, List.cons_append, List.append_assoc]
    rw [htext]
    exact freeOf_append.mpr ⟨hopening, operand.freeOf_text k rest⟩

private theorem stripStart?_mark (s : List Char) :
    stripStart? ['-', '-'] ('-' :: '-' :: s) = some s := stripStart?_append ['-', '-'] s

private theorem relation?_truthy (name : Name) :
    Condition.relation? (truthy name).text = none := by
  have hrun : takeRun Condition.isNameChar name.chars = (name.chars, []) := by
    have h := takeRun_append_of_all (t := []) name.isName nofun
    rwa [List.append_nil] at h
  have hsymbol : ∀ r : Relation, stripStart? r.symbol.toList (trimStart []) = none := by
    intro r
    cases r <;> rfl
  simp only [text, Condition.relation?, stripStart?_mark, hrun,
    List.isEmpty_eq_false_iff.mpr name.ne_nil, Bool.false_eq_true, ite_false, hsymbol,
    List.findSome?_eq_none_iff, implies_true]

/-- A comparison with any text of one line is cut in front of the text. -/
theorem relation?_comparison (name : Name) (before : Blanks) (relation : Relation) (after : Blanks)
    {operand : List Char} (htrim : isTrimmed operand = true) (hline : '\n' ∉ operand)
    (hsymbol : (after.1 ++ operand).head? ≠ some '=') :
    Condition.relation? (opening name before relation after ++ operand) =
      some (name.chars, relation, operand) := by
  obtain ⟨c, u, hu, hname, -⟩ := exists_symbol relation
  obtain ⟨e, w, hw⟩ : ∃ e w, after.1 ++ operand = e :: w :=
    List.exists_cons_of_ne_nil (List.append_ne_nil_of_right_ne_nil _ (ne_nil_of_isTrimmed htrim))
  have he : e ≠ '=' := by
    rintro rfl
    exact hsymbol (hw ▸ rfl)
  have htext : opening name before relation after ++ operand =
      '-' :: '-' :: (name.chars ++ (before.1 ++ (relation.symbol.toList ++ e :: w))) := by
    simp only [opening, List.cons_append, List.append_assoc, hw]
  have hrun : takeRun Condition.isNameChar (name.chars ++ (before.1 ++
      (relation.symbol.toList ++ e :: w))) =
        (name.chars, before.1 ++ (relation.symbol.toList ++ e :: w)) := by
    refine takeRun_append_of_all name.isName fun x hx => ?_
    cases hb : before.1 with
    | nil =>
      rw [hb, hu, List.nil_append, List.cons_append, List.head?_cons] at hx
      exact Option.some.inj hx ▸ hname
    | cons y t =>
      rw [hb, List.cons_append, List.head?_cons] at hx
      have hy : isBlank x = true :=
        Option.some.inj hx ▸ isBlank_of_mem before.2 (hb ▸ List.mem_cons_self ..)
      by_cases h : Condition.isNameChar x = true
      · exact absurd hy (Bool.eq_false_iff.mp (isTame_iff.mp (isTame_of_isNameChar h)).2.1)
      · exact Bool.eq_false_iff.mpr h
  have hgap : trimStart (before.1 ++ (relation.symbol.toList ++ e :: w)) =
      relation.symbol.toList ++ e :: w := by
    have hsymbol := isTrimmed_of_tame (isTame_symbol relation) (hu ▸ List.cons_ne_nil c u)
    rw [trimStart_append_of_blank before.2, trimStart_append_of_isTrimmed hsymbol]
  have hoperand : trimStart (e :: w) = operand := by
    have h := trimStart_append_of_isTrimmed htrim []
    rwa [List.append_nil, ← trimStart_append_of_blank after.2, hw] at h
  have hone : operand.contains '\n' = false := by
    rw [List.contains_eq_mem, decide_eq_false hline]
  have hne : operand.isEmpty = false :=
    List.isEmpty_eq_false_iff.mpr (ne_nil_of_isTrimmed htrim)
  rw [htext, Condition.relation?, stripStart?_mark]
  simp only [hrun, hgap, List.isEmpty_eq_false_iff.mpr name.ne_nil, Bool.false_eq_true, ite_false]
  refine findSome?_symbol relation he w (fun r after =>
    if (trimStart after).isEmpty || (trimStart after).contains '\n' then none
    else some (name.chars, r, trimStart after)) ?_
  simp only [hoperand, hone, hne, Bool.or_self, Bool.false_eq_true, ite_false]

private theorem relation?_compare (name : Name) (before : Blanks) (relation : Relation)
    (after : Blanks) (operand : Operand) :
    Condition.relation? (compare name before relation after operand).text =
      some (name.chars, relation, operand.text) := by
  have htext : (compare name before relation after operand).text =
      opening name before relation after ++ operand.text := by
    simp only [text, opening, List.cons_append, List.append_assoc]
  rw [htext]
  refine relation?_comparison name before relation after operand.isTrimmed_text operand.oneLine ?_
  obtain ⟨d, v, hv, -, hd⟩ := operand.exists_text
  cases ha : after.1 with
  | nil =>
    rw [hv]
    rintro ⟨rfl⟩
    exact hd rfl
  | cons e w =>
    rintro ⟨rfl⟩
    exact absurd (isBlank_of_mem after.2 (ha ▸ List.mem_cons_self ..)) (by decide)

/-- A question is read as the condition that it writes. -/
theorem atom_text : Condition.atom q.text = q.condition := by
  cases q with
  | truthy name =>
    rw [Condition.atom, relation?_truthy]
    simp only [text, stripStart?_mark, Option.getD_some, condition]
  | compare name before relation after operand =>
    rw [Condition.atom, relation?_compare]
    simp only [operand.comparand_text, condition]

end Question

end RouteSheet.Surface
