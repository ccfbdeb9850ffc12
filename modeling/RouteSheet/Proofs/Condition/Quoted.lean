import RouteSheet.Proofs.Surface.Condition

/-!
# Quoted operands

Connectives are looked for in the text of a condition as it stands. A quoted operand of one line
that holds none of them is compared with as a whole, whatever else it holds. Where it holds one,
the condition is cut there, as it is outside of quotes.
-/

namespace RouteSheet.Condition

open Text Surface

variable (name : Name) (before : Blanks) (relation : Relation) (after : Blanks) (q : Quoted)

/-- A comparison with a quoted operand. -/
def quotedText : List Char := Question.opening name before relation after ++ q.text

/-- The part of the comparison in front of the contents of the quotes. -/
def quotedStart : List Char := Question.opening name before relation after ++ [q.quote]

/-- The quoted text of a comparison is its start, the contents and the quote. -/
theorem quotedText_eq : quotedText name before relation after q =
    quotedStart name before relation after q ++ (q.contents ++ [q.quote]) := by
  rw [quotedText, quotedStart, List.append_assoc]
  rfl

/-- The quoted text of a comparison has no blanks at its ends. -/
theorem isTrimmed_quotedText : isTrimmed (quotedText name before relation after q) = true := by
  have hmark : isTrimmed ['-'] = true := by decide
  exact isTrimmed_append hmark q.isTrimmed_text
    ('-' :: (name.chars ++ (before.1 ++ (relation.symbol.toList ++ after.1))))

/-- No connective begins before the contents of the quotes. -/
theorem freeOf_quotedStart (k : Connective) (rest : List Char) :
    FreeOf k.text (quotedStart name before relation after q) rest := by
  have hquote : ([q.quote] ++ rest).head? ≠ some k.letter := by
    rw [List.singleton_append, List.head?_cons]
    rcases q.quote_eq with h | h <;> rw [h] <;> cases k <;> decide
  exact freeOf_append.mpr
    ⟨k.freeOf_opening name before relation after hquote, k.freeOf_quote q rest⟩

/-- The first connective in the quotes is the first in the text. -/
theorem cutAtPhrase?_quotedText {k : Connective} {left right : List Char}
    (h : cutAtPhrase? k.text q.contents = some (left, right)) :
    cutAtPhrase? k.text (quotedText name before relation after q) =
      some (quotedStart name before relation after q ++ left, right ++ [q.quote]) := by
  obtain ⟨hcontents, hfree⟩ := cutAtPhrase?_eq_some h
  have htext : quotedText name before relation after q =
      quotedStart name before relation after q ++ left ++ (k.text ++ (right ++ [q.quote])) := by
    rw [quotedText_eq, hcontents]
    simp only [List.append_assoc]
  rw [htext]
  refine cutAtPhrase?_of_freeOf k.text_ne_nil (freeOf_append.mpr ⟨?_, hfree.replace_rest _⟩)
  exact freeOf_quotedStart name before relation after q k _

/-- What no connective is found in is compared with as a whole. -/
theorem parse_quotedText_of_unconnected (hline : '\n' ∉ q.contents)
    (hk : ∀ k : Connective, containsPhrase k.text q.contents = false) :
    parse (quotedText name before relation after q) =
      .compare (String.ofList name.chars) relation (.string (String.ofList q.contents)) := by
  let question : Question := .compare name before relation after (.quoted ⟨q, hline, hk⟩)
  have htext : quotedText name before relation after q = question.text := by
    simp only [quotedText, Question.opening, question, Question.text, List.cons_append,
      List.append_assoc]
    rfl
  have h := question.parse_text isBlankText_nil isBlankText_nil
  rw [List.nil_append, List.append_nil] at h
  rw [htext, h]
  rfl

/-- A quoted operand of one line is compared with as a whole, unless a connective is found in it.
Quotes do not hide a connective: the condition is cut at the first disjunction, and where there is
none at the first conjunction, within the quotes as outside of them. -/
theorem parse_quotedText :
    ('\n' ∉ q.contents → (∀ k : Connective, containsPhrase k.text q.contents = false) →
      parse (quotedText name before relation after q) =
        .compare (String.ofList name.chars) relation (.string (String.ofList q.contents))) ∧
    (∀ left right, cutAtPhrase? Connective.or.text q.contents = some (left, right) →
      parse (quotedText name before relation after q) =
        .or (parse (quotedStart name before relation after q ++ left))
          (parse (right ++ [q.quote]))) ∧
    (∀ left right, containsPhrase Connective.or.text q.contents = false →
      cutAtPhrase? Connective.and.text q.contents = some (left, right) →
      parse (quotedText name before relation after q) =
        .and (parse (quotedStart name before relation after q ++ left))
          (parse (right ++ [q.quote]))) := by
  have htrim := isTrimmed_quotedText name before relation after q
  refine ⟨?_, ?_, ?_⟩
  · intro hline hk
    exact parse_quotedText_of_unconnected name before relation after q hline hk
  · intro left right hcut
    exact parse_or htrim (cutAtPhrase?_quotedText name before relation after q hcut)
  · intro left right hor hcut
    refine parse_and htrim ?_ (cutAtPhrase?_quotedText name before relation after q hcut)
    rw [quotedText_eq]
    exact freeOf_append.mpr ⟨freeOf_quotedStart name before relation after q .or _,
      Connective.or.freeOf_contents q hor []⟩

/-- The comparison of a role with a text in double quotes, with one space around the symbol. -/
def roleText (s : List Char) (h : '"' ∉ s) : List Char :=
  quotedText ⟨"role".toList, by decide, by decide⟩ ⟨[' '], rfl⟩ .eq ⟨[' '], rfl⟩ ⟨'"', s, rfl, h⟩

/-- Connectives with a space on either side cut a quoted comparand, and others do not. -/
theorem parse_quotedText_role :
    parse (roleText "not = 1 or".toList (by decide)) =
        .compare "role" .eq (.string "not = 1 or") ∧
      parse (roleText "a or b".toList (by decide)) =
        .or (parse "--role = \"a".toList) (parse "b\"".toList) ∧
      parse (roleText "a and b".toList (by decide)) =
        .and (parse "--role = \"a".toList) (parse "b\"".toList) := by
  refine ⟨?_, ?_, ?_⟩
  · refine (parse_quotedText _ _ _ _ _).1 (by decide) ?_
    intro k
    cases k <;> decide
  · exact (parse_quotedText _ _ _ _ _).2.1 ['a'] ['b'] (by decide)
  · exact (parse_quotedText _ _ _ _ _).2.2 ['a'] ['b'] (by decide) (by decide)

/-- Quotes around a disjunction do not keep it from cutting the condition, and an operand of two
lines is not read at all, so a quoted operand is not always compared with as a whole. -/
theorem parse_quoted_or :
    parse "--role = \"a or b\"".toList =
        .or (.compare "role" .eq (.string "\"a")) (.truthy "b\"") ∧
      parse "--role = \"a\nb\"".toList = .truthy "role = \"a\nb\"" ∧
      ¬ ∀ (name : Name) (relation : Relation) (q : Quoted),
        parse (quotedText name ⟨[' '], rfl⟩ relation ⟨[' '], rfl⟩ q) =
          .compare (String.ofList name.chars) relation (.string (String.ofList q.contents)) := by
  have hcut : parse "--role = \"a or b\"".toList =
      .or (.compare "role" .eq (.string "\"a")) (.truthy "b\"") := by
    with_unfolding_all rfl
  refine ⟨hcut, by with_unfolding_all rfl, fun hall => ?_⟩
  have hwhole : parse (roleText "a or b".toList (by decide)) = _ :=
    hall ⟨"role".toList, by decide, by decide⟩ .eq ⟨'"', "a or b".toList, rfl, by decide⟩
  have htext : roleText "a or b".toList (by decide) = "--role = \"a or b\"".toList := by
    decide
  rw [htext, hcut] at hwhole
  cases hwhole

end RouteSheet.Condition
